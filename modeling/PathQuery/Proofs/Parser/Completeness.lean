/-
The parser reads every greedy derivation, unless a limit stops it.

* **`Derivation.IsRead`** — the production of its nonterminal reads a derivation, with the counts of
  the derivation;
* **`Derivation.IsLooped`** — the same for a loop, in front of whatever comes behind the derivation;
* **`Derivation.isReadBy`** — every greedy derivation is read in one of these ways.

Design notes: chains are read by a loop, so for them the statement is about the loop, with
whatever comes behind it as a continuation; this makes the induction follow the left recursion of
derivations.
-/
import PathQuery.Proofs.Parser.Accepts
import PathQuery.Proofs.Parser.Soundness

namespace PathQuery

namespace Parser

variable {α β : Type} {levels nesting peak links : Nat} {rest : List TokenKind}

/-! ### Reading a derivation -/

/-- The tokens `rest` do not continue the derivation in front of them. -/
structure Stops (bound : Nat) (rest : List TokenKind) : Prop where
  strength : headStrength rest ≤ bound
  no_call : rest.head? ≠ some (.symbol .leftParen)
  no_arrow : rest.head? ≠ some (.symbol .arrow)

theorem Stops.mono {bound bound' : Nat} (h : Stops bound rest) (hb : bound ≤ bound') :
    Stops bound' rest := ⟨Nat.le_trans h.strength hb, h.no_call, h.no_arrow⟩

/-- A token other than a parenthesis and an arrow, and weak enough. -/
theorem Stops.cons {bound : Nat} {k : TokenKind} (hs : k.strength ≤ bound)
    (hl : k ≠ .symbol .leftParen) (ha : k ≠ .symbol .arrow) (ks : List TokenKind) :
    Stops bound (k :: ks) := ⟨hs, by simpa using hl, by simpa using ha⟩

/-- The parser `p` reads the derivation `t` wherever the tokens behind it do not continue it. -/
def Reads (p : Parser Expr) (levels nesting : Nat) {n : Nonterminal} (t : Derivation n) : Prop :=
  ∀ ⦃s : ParserState⦄ ⦃rest : List TokenKind⦄, s.links ≤ maxChain → s.kinds = t.tokens ++ rest →
    Stops t.hold rest → Accepts p s levels nesting (s.links + t.links) t.tree rest s.links

/-- The loop behind the operands of a level. -/
def operationLoop (level : Level) (levels limit : Nat) (left : Expr) (_ : Bool) : Parser Expr :=
  chainRest level.operator (production (nestedAt levels) level.operand) limit left

/-- The loop behind the first part of a member chain. -/
def memberLoop (levels limit : Nat) (object : Expr) (nullSafe : Bool) : Parser Expr :=
  members (nestedAt levels) limit object nullSafe

/-- What the rounds of a chain may need, links and rounds left, at a place with `links` links. -/
structure Rounds (links limit : Nat) : Prop where
  links_le : links ≤ maxChain
  lt_limit : maxChain < links + limit

/-- There is a round left, and behind its link there are as many as before. -/
theorem Rounds.exists_succ {links limit : Nat} (h : Rounds links limit) :
    ∃ limit', limit = limit' + 1 ∧ (links < maxChain → Rounds (links + 1) limit') := by
  obtain ⟨hl, hlimit⟩ := h
  exact ⟨limit - 1, by omega, fun hlt => ⟨hlt, by omega⟩⟩

end Parser

namespace Derivation

open PathQuery.Parser

variable {n : Nonterminal}

/-- The production of its nonterminal reads a derivation. -/
def IsRead (t : Derivation n) : Prop :=
  ∀ levels, Reads (production (nestedAt levels) n) levels t.nesting t

/-- The strongest token that may follow a derivation inside a loop, which goes on with tokens one
step stronger than those that stop it. -/
def loopHold (t : Derivation n) : Nat := if t.isOpen then 0 else n.tightness + 1

/-- Whatever the loop behind a derivation comes to, so does the loop in front of it. -/
def IsLooped (t : Derivation n) (first : Nat → Parser Expr)
    (loop : Nat → Nat → Expr → Bool → Parser Expr) : Prop :=
  ∀ ⦃levels limit nesting peak links : Nat⦄ ⦃s : ParserState⦄ ⦃rest rest' : List TokenKind⦄
    ⦃e : Expr⦄, Rounds s.links limit → s.kinds = t.tokens ++ rest → Stops t.loopHold rest →
    (∀ s' limit', s'.kinds = rest → s'.links = s.links + t.rounds → Rounds s'.links limit' →
      Accepts (loop levels limit' t.tree t.nullSafe) s' levels nesting peak e rest' links) →
    Accepts (first levels >>= fun x => loop levels limit x false) s levels (max t.nesting nesting)
      (max (s.links + t.links) peak) e rest' links

/-- How a derivation is read: chains by their loops, all else by its production. -/
def IsReadBy : {n : Nonterminal} → Derivation n → Prop
  | .binary level, t =>
    t.IsLooped (fun levels => production (nestedAt levels) level.operand) (operationLoop level)
  | .path, t => t.IsLooped (fun levels => production (nestedAt levels) .primary) memberLoop
  | .expression, t => t.IsRead
  | .unary, t => t.IsRead
  | .primary, t => t.IsRead

/-! ### Chains -/

/-- A loop that ends where the derivation does reads it. -/
theorem IsLooped.whole {t : Derivation n} {first : Nat → Parser Expr}
    {loop : Nat → Nat → Expr → Bool → Parser Expr} {levels : Nat} {s : ParserState}
    {rest : List TokenKind} (ht : t.IsLooped first loop)
    (hstop : ∀ ⦃s' limit⦄, s'.kinds = rest → Rounds s'.links limit →
      runOn (loop levels limit t.tree t.nullSafe) s' = (.ok t.tree, s'))
    (hl : s.links ≤ maxChain) (hk : s.kinds = t.tokens ++ rest) (hs : Stops t.hold rest) :
    Accepts (first levels >>= fun x => loop levels (maxChain + 1) x false) s levels t.nesting
      (s.links + t.links) t.tree rest (s.links + t.rounds) := by
  have hs' : Stops t.loopHold rest := by
    refine hs.mono ?_
    rw [hold, loopHold]
    split <;> omega
  refine (ht ⟨hl, by omega⟩ hk hs' ?_).cast (Nat.max_zero _) (Nat.max_zero _)
  intro s' limit' hk' hl' hr
  exact .of_eq (hstop hk' hr) (.pure t.tree (Nat.zero_le _) hk' hl')

theorem isRead_level {level : Level} {t : Derivation (.binary level)} (ht : t.IsReadBy) :
    t.IsRead := by
  intro levels s rest hl hk hs
  rw [production_binary]
  refine (ht.whole ?_ hl hk hs).restoring ?_
  · intro s' limit hk' hr
    obtain ⟨limit, rfl, -⟩ := hr.exists_succ
    -- What follows is too weak for an operator of the level, so the loop ends.
    have hnone : level.operator s'.stream.peek.kind = none := by
      rw [Level.operator_eq_none, s'.strength_peek, hk']
      have hle : headStrength rest ≤ level.tightness := Nat.le_trans hs.strength t.hold_le
      omega
    rw [operationLoop, chainRest, runOn_bind_of_ok (runOn_peek s'), hnone]
    rfl
  · intro x s' hrun
    obtain ⟨d, hd⟩ := derives_production levels level.operand hl hrun
    exact hd.links

theorem isDot_eq_false {k : TokenKind} (h : k.strength ≤ 7) : k.isDot = false := by
  by_contra hdot
  obtain ⟨nullSafe, rfl, -⟩ := exists_dotSymbol (by simpa using hdot)
  rw [strength_dotSymbol] at h
  omega

theorem isRead_path {t : Derivation .path} (ht : t.IsReadBy) : t.IsRead := by
  intro levels s rest hl hk hs
  refine (ht.whole ?_ hl hk hs).restoring ?_
  · intro s' limit hk' hr
    obtain ⟨limit, rfl, -⟩ := hr.exists_succ
    -- What follows is weaker than a dot, so the loop ends.
    have hdot : s'.stream.peek.kind.isDot = false := by
      refine isDot_eq_false ?_
      rw [s'.strength_peek, hk']
      exact Nat.le_trans hs.strength t.hold_le
    rw [memberLoop, members, runOn_bind_of_ok (runOn_peek s')]
    simp [hdot]
  · intro x s' hrun
    obtain ⟨d, hd⟩ := derives_production levels .primary hl hrun
    exact hd.links

/-- The production of a nonterminal reads what its loop reads. -/
theorem IsReadBy.isRead : {n : Nonterminal} → {t : Derivation n} → t.IsReadBy → t.IsRead
  | .expression, _, ht => ht
  | .binary _, _, ht => isRead_level ht
  | .unary, _, ht => ht
  | .path, _, ht => isRead_path ht
  | .primary, _, ht => ht

theorem isReadBy_operand {level : Level} {x : Derivation level.operand} (hx : x.IsRead) :
    (operand level x).IsReadBy := by
  intro levels limit nesting peak links s rest rest' e hr hk hs hloop
  have hstop : Stops x.hold rest := by
    rw [hold, Level.tightness_operand]
    exact hs
  exact (hx levels hr.links_le hk hstop).bind fun s' hk' hl' => hloop s' limit hk' hl' (hl' ▸ hr)

theorem isReadBy_operation {level : Level} {op : BinaryOp} {ofLevel : op.level = level}
    {l : Derivation (.binary level)} {r : Derivation level.operand} (hclosed : l.isOpen = false)
    (hl : l.IsReadBy) (hr : r.IsRead) : (operation level op ofLevel l r).IsReadBy := by
  intro levels limit nesting peak links s rest rest' e hrounds hk hs hloop
  rw [tokens, List.append_assoc, List.cons_append] at hk
  -- Only an open left side would go on with the operator.
  have hstopl : Stops l.loopHold (.symbol op.symbol :: (r.tokens ++ rest)) := by
    refine .cons ?_ (op.symbol_ne rfl) (op.symbol_ne rfl) _
    rw [loopHold, hclosed, op.strength_symbol, ofLevel]
    exact Nat.le_refl _
  have hstopr : Stops r.hold rest := by
    rw [hold, Level.tightness_operand]
    exact hs
  -- The round behind the left side takes the operator, its link and the right side.
  have hround : ∀ s' limit', s'.kinds = .symbol op.symbol :: (r.tokens ++ rest) →
      s'.links = s.links + l.rounds → Rounds s'.links limit' →
      Accepts (operationLoop level levels limit' l.tree l.nullSafe) s' levels
        (max r.nesting nesting) (max (s.links + (l.rounds + 1 + r.links)) peak) e rest' links := by
    intro s' limit' hk' hl' hr'
    obtain ⟨limit', rfl, hnext⟩ := hr'.exists_succ
    have hop : level.operator s'.stream.peek.kind = some op.join := by
      rw [ParserState.kind_peek_of_cons hk', ← ofLevel]
      exact Level.operator_symbol op
    rw [operationLoop, chainRest]
    refine .step (runOn_peek s') ?_
    simp only [hop]
    refine .link (by omega) fun hlt => .step (runOn_discard_advance _) ?_
    have hright : Accepts (production (nestedAt levels) level.operand) s'.linked.advanced levels
        r.nesting (s'.links + 1 + r.links) r.tree rest (s'.links + 1) :=
      hr levels hlt (ParserState.kinds_advanced_of_cons (s := s'.linked) hk') hstopr
    refine (hright.bind fun s'' hk'' hl'' => hloop s'' limit' hk'' ?_ ?_).cast rfl ?_
    · rw [hl'', hl', rounds, Nat.add_assoc]
    · rw [hl'']
      exact hnext hlt
    · omega
  refine (hl hrounds hk hstopl hround).cast (Nat.max_assoc _ _ _).symm ?_
  rw [Derivation.links]
  omega

/-! ### Delimiters -/

theorem runOn_close {delimiter : Delimiter} {opened : Position} {s : ParserState}
    {ks : List TokenKind} (hk : s.kinds = .symbol delimiter.closer :: ks) :
    runOn (close delimiter opened) s = (.ok (), s.advanced) := by
  rw [close, runOn_bind_of_ok (runOn_peek s), if_pos (ParserState.kind_peek_of_cons hk),
    runOn_discard_advance]

theorem runOn_expect {symbol : Symbol} {expected : Expected} {s : ParserState}
    {ks : List TokenKind} (hk : s.kinds = .symbol symbol :: ks) :
    runOn (expect symbol expected) s = (.ok (), s.advanced) := by
  rw [runOn_expect_eq_ok, ParserState.kinds_advanced_of_cons hk]
  exact ⟨hk, rfl⟩

/-- An expression takes a level. -/
theorem IsRead.nested {e : Derivation .expression} (he : e.IsRead) (levels : Nat) :
    Reads (nestedAt levels).expression levels (e.nesting + 1) e := by
  intro s rest hl hk hs
  cases levels with
  | zero => exact .nested _ s (Nat.succ_pos _) rfl
  | succ levels => exact (he levels hl hk hs).deeper

/-- So does the operand of a minus sign. -/
theorem IsRead.nested_unary {x : Derivation .unary} (hx : x.IsRead) (levels : Nat) :
    Reads (nestedAt levels).unary levels (x.nesting + 1) x := by
  intro s rest hl hk hs
  cases levels with
  | zero => exact .nested _ s (Nat.succ_pos _) rfl
  | succ levels => exact (hx levels hl hk hs).deeper

end Derivation

/-! ### Items -/

/-- Items are read up to their closing delimiter, if there are more rounds than tokens. -/
def Items.IsRead (es : Items) : Prop :=
  ∀ ⦃levels limit : Nat⦄ ⦃delimiter : Delimiter⦄ ⦃opened : Position⦄ ⦃s : ParserState⦄
    ⦃rest : List TokenKind⦄, s.links ≤ maxChain →
    s.kinds = es.tokens ++ .symbol delimiter.closer :: rest → es.tokens.length < limit →
    Parser.Accepts (Parser.items (Parser.nestedAt levels).expression delimiter opened limit) s
      levels es.nesting (s.links + es.links) es.trees rest s.links

namespace Items

open PathQuery.Parser

theorem runOn_items_of_closer {expression : Parser Expr} {delimiter : Delimiter} {opened : Position}
    {limit : Nat} {s : ParserState} {ks : List TokenKind}
    (hk : s.kinds = .symbol delimiter.closer :: ks) (hlimit : 0 < limit) :
    runOn (items expression delimiter opened limit) s = (.ok [], s.advanced) := by
  obtain ⟨limit, rfl⟩ := Nat.exists_eq_succ_of_ne_zero (Nat.ne_of_gt hlimit)
  rw [items, runOn_bind_of_ok (runOn_peek s), if_pos (ParserState.kind_peek_of_cons hk),
    runOn_bind_of_ok (runOn_discard_advance s), runOn_pure]

theorem isRead_none : Items.none.IsRead := by
  intro levels limit delimiter opened s rest hl hk hlimit
  exact .of_eq (runOn_items_of_closer hk hlimit)
    (.pure [] hl (ParserState.kinds_advanced_of_cons hk) rfl)

/-- In front of an expression the items do not end. -/
theorem peek_ne {e : Derivation .expression} {s : ParserState} {rest : List TokenKind}
    (hk : s.kinds = e.tokens ++ rest) (delimiter : Delimiter) :
    s.stream.peek.kind ≠ .symbol delimiter.closer ∧ s.stream.peek.kind ≠ .endOfInput := by
  obtain ⟨k, ks, hhead, hstart⟩ := e.head_tokens
  rw [hhead] at hk
  rw [ParserState.kind_peek_of_cons hk]
  constructor
  · rintro rfl
    cases delimiter <;> exact absurd hstart (by decide)
  · rintro rfl
    exact absurd hstart (by decide)

theorem length_tokens_pos (e : Derivation .expression) : 0 < e.tokens.length := by
  obtain ⟨k, ks, hhead, -⟩ := e.head_tokens
  rw [hhead]
  exact Nat.succ_pos _

theorem stops_closer (delimiter : Delimiter) (bound : Nat) (rest : List TokenKind) :
    Stops bound (.symbol delimiter.closer :: rest) := by
  cases delimiter <;> exact .cons (Nat.zero_le _) (by simp [Delimiter.closer])
    (by simp [Delimiter.closer]) rest

theorem isRead_last {e : Derivation .expression} (he : e.IsRead) : (Items.last e).IsRead := by
  intro levels limit delimiter opened s rest hl hk hlimit
  obtain ⟨hclose, hend⟩ := peek_ne hk delimiter
  have hpos : 0 < e.tokens.length := length_tokens_pos e
  obtain ⟨limit, rfl⟩ := Nat.exists_eq_succ_of_ne_zero (Nat.ne_of_gt (Nat.zero_lt_of_lt hlimit))
  have hlimit' : 0 < limit := Nat.lt_of_lt_of_le hpos (Nat.le_of_lt_succ hlimit)
  rw [items]
  refine .step (runOn_peek s) ?_
  rw [if_neg hclose, if_neg hend]
  refine (he.nested levels hl hk (stops_closer _ _ _)).andThen 0 0 (fun s' hk' hl' => ?_)
    (Nat.max_zero _) (Nat.max_zero _)
  have hclose' := ParserState.kind_peek_of_cons hk'
  refine .step (runOn_peek s') ?_
  rw [if_neg (by rw [hclose']; cases delimiter <;> decide), if_pos hclose']
  -- The closing delimiter stays for the next round, which ends the items.
  exact .step (runOn_items_of_closer hk' hlimit')
    (.pure [e.tree] (Nat.zero_le _) (ParserState.kinds_advanced_of_cons hk') hl')

theorem isRead_more {e : Derivation .expression} {more : Items} (he : e.IsRead)
    (hmore : more.IsRead) : (Items.more e more).IsRead := by
  intro levels limit delimiter opened s rest hl hk hlimit
  rw [Items.tokens, List.append_assoc, List.cons_append] at hk
  obtain ⟨hclose, hend⟩ := peek_ne hk delimiter
  rw [Items.tokens, List.length_append, List.length_cons] at hlimit
  obtain ⟨limit, rfl⟩ := Nat.exists_eq_succ_of_ne_zero (Nat.ne_of_gt (Nat.zero_lt_of_lt hlimit))
  have hlimit' : more.tokens.length < limit := by omega
  rw [items]
  refine .step (runOn_peek s) ?_
  rw [if_neg hclose, if_neg hend]
  have hstop : Stops e.hold (.symbol .comma :: (more.tokens ++ .symbol delimiter.closer :: rest)) :=
    .cons (Nat.zero_le _) (by simp) (by simp) _
  refine (he.nested levels hl hk hstop).andThen more.nesting (s.links + more.links)
    (fun s' hk' hl' => ?_) rfl (Nat.add_max_add_left _ _ _)
  refine .step (runOn_peek s') ?_
  rw [if_pos (ParserState.kind_peek_of_cons hk')]
  refine .step (runOn_discard_advance s') ?_
  have hl'' : s'.advanced.links = s.links := hl'
  rw [← hl''] at hl ⊢
  exact (hmore hl (ParserState.kinds_advanced_of_cons hk') hlimit').returning _

/-- The items behind an opening delimiter. -/
theorem IsRead.list {es : Items} (hes : es.IsRead) {levels : Nat} {delimiter : Delimiter}
    {opened : Position} {s : ParserState} {rest : List TokenKind} (hl : s.links ≤ maxChain)
    (hk : s.kinds = es.tokens ++ .symbol delimiter.closer :: rest) :
    Accepts (list (nestedAt levels) delimiter opened) s levels es.nesting (s.links + es.links)
      es.trees rest s.links := by
  rw [Parser.list]
  refine .step (runOn_remaining s) (hes hl hk ?_)
  rw [hk, List.length_append, List.length_cons]
  omega

end Items

namespace Derivation

open PathQuery.Parser

/-! ### Member chains -/

theorem runOn_memberName {m : MemberName} {s : ParserState} {ks : List TokenKind}
    (hk : s.kinds = m.token :: ks) : runOn memberName s = (.ok m.text, s.advanced) := by
  rw [memberName, runOn_bind_of_ok (runOn_peek s), ParserState.kind_peek_of_cons hk]
  cases m with
  | identifier name => rfl
  | index n nonneg =>
    simp only [MemberName.token, if_neg nonneg]
    rfl

/-- The rest of a round behind the name of a member: its arguments, if any, and the next round. -/
def afterName (nested : Nested) (limit : Nat) (object : Expr) (name : String) (nullSafe : Bool) :
    Parser Expr := do
  if ← isNext .leftParen then
    let opened := (← advance).position
    let arguments ← Parser.list nested .parenthesis opened
    members nested limit (.memberCall object name arguments nullSafe) nullSafe
  else members nested limit (.member object name nullSafe) nullSafe

/-- A round takes a dot, its link and a name. -/
theorem accepts_memberLoop {object : Expr} {before nullSafe : Bool} {m : MemberName}
    {levels limit nesting peak links : Nat} {s : ParserState} {ks rest : List TokenKind} {e : Expr}
    (hk : s.kinds = .symbol (dotSymbol nullSafe) :: m.token :: ks) (hpeak : s.links < peak)
    (hnext : s.links < maxChain → ∀ s', s'.kinds = ks → s'.links = s.links + 1 →
      Accepts (afterName (nestedAt levels) limit object m.text (before || nullSafe)) s' levels
        nesting peak e rest links) :
    Accepts (memberLoop levels (limit + 1) object before) s levels nesting peak e rest links := by
  have hdot : s.stream.peek.kind = .symbol (dotSymbol nullSafe) := ParserState.kind_peek_of_cons hk
  have hisDot : s.stream.peek.kind.isDot = true := by rw [hdot]; cases nullSafe <;> rfl
  have hsafe : (s.stream.peek.kind == .symbol .nullSafeDot) = nullSafe := by
    rw [hdot]
    cases nullSafe <;> rfl
  rw [memberLoop, members]
  refine .step (runOn_peek s) ?_
  simp only [hisDot, hsafe]
  refine .link hpeak fun hlt => .step (runOn_discard_advance _) ?_
  have hk' : s.linked.advanced.kinds = m.token :: ks :=
    ParserState.kinds_advanced_of_cons (s := s.linked) hk
  exact .step (runOn_memberName hk') (hnext hlt _ (ParserState.kinds_advanced_of_cons hk') rfl)

theorem isReadBy_primary {p : Derivation .primary} (hp : p.IsRead) : (primary p).IsReadBy := by
  intro levels limit nesting peak links s rest rest' e hr hk hs hloop
  exact (hp levels hr.links_le hk hs).bind fun s' hk' hl' => hloop s' limit hk' hl' (hl' ▸ hr)

theorem stops_dotSymbol {o : Derivation .path} (hclosed : o.isOpen = false) (nullSafe : Bool)
    (ks : List TokenKind) : Stops o.loopHold (.symbol (dotSymbol nullSafe) :: ks) := by
  refine .cons ?_ (dotSymbol_ne (by decide)) (dotSymbol_ne (by decide)) ks
  rw [loopHold, hclosed, strength_dotSymbol]
  exact Nat.le_refl _

theorem isReadBy_step {o : Derivation .path} {nullSafe : Bool} {m : MemberName}
    (hclosed : o.isOpen = false) (ho : o.IsReadBy) : (step o nullSafe m).IsReadBy := by
  intro levels limit nesting peak links s rest rest' e hrounds hk hs hloop
  rw [tokens, List.append_assoc] at hk
  have hround : ∀ s' limit', s'.kinds = .symbol (dotSymbol nullSafe) :: m.token :: rest →
      s'.links = s.links + o.rounds → Rounds s'.links limit' →
      Accepts (memberLoop levels limit' o.tree o.nullSafe) s' levels nesting
        (max (s.links + (o.rounds + 1)) peak) e rest' links := by
    intro s' limit' hk' hl' hr'
    obtain ⟨limit', rfl, hnext⟩ := hr'.exists_succ
    refine accepts_memberLoop hk' (by omega) fun hlt s'' hk'' hl'' => ?_
    -- Without a parenthesis behind the name there are no arguments.
    have hcall : (s''.stream.peek.kind == .symbol .leftParen) = false := by
      rw [s''.kind_peek, hk'']
      have := hs.no_call
      cases rest with
      | nil => rfl
      | cons k ks => simpa using this
    refine .step (runOn_isNext _ s'') ?_
    rw [hcall]
    have hlinks : s''.links = s.links + (o.rounds + 1) := by omega
    exact .raise (by omega) (hloop s'' limit' hk'' hlinks (hl'' ▸ hnext hlt))
  refine (ho hrounds hk (stops_dotSymbol hclosed nullSafe _) hround).cast rfl ?_
  rw [Derivation.links]
  omega

theorem isReadBy_stepCall {o : Derivation .path} {nullSafe : Bool} {m : MemberName} {args : Items}
    (hclosed : o.isOpen = false) (ho : o.IsReadBy) (hargs : args.IsRead) :
    (stepCall o nullSafe m args).IsReadBy := by
  intro levels limit nesting peak links s rest rest' e hrounds hk hs hloop
  rw [tokens, List.append_assoc, List.cons_append, List.cons_append, List.cons_append,
    List.append_assoc, List.singleton_append] at hk
  have hround : ∀ s' limit', s'.kinds = .symbol (dotSymbol nullSafe) :: m.token ::
        .symbol .leftParen :: (args.tokens ++ .symbol .rightParen :: rest) →
      s'.links = s.links + o.rounds → Rounds s'.links limit' →
      Accepts (memberLoop levels limit' o.tree o.nullSafe) s' levels (max args.nesting nesting)
        (max (s.links + (o.rounds + 1 + args.links)) peak) e rest' links := by
    intro s' limit' hk' hl' hr'
    obtain ⟨limit', rfl, hnext⟩ := hr'.exists_succ
    refine accepts_memberLoop hk' (by omega) fun hlt s'' hk'' hl'' => ?_
    have hcall : (s''.stream.peek.kind == .symbol .leftParen) = true := by
      rw [ParserState.kind_peek_of_cons hk'']
      rfl
    refine .step (runOn_isNext _ s'') ?_
    rw [hcall]
    refine .step (runOn_advance s'') ?_
    have hl₃ : s''.advanced.links ≤ maxChain := by
      rw [ParserState.links_advanced]
      omega
    refine ((hargs.list hl₃ (ParserState.kinds_advanced_of_cons hk'')).bind fun s₃ hk₃ hlinks₃ =>
      hloop s₃ limit' hk₃ ?_ ?_).cast rfl ?_
    · rw [hlinks₃, ParserState.links_advanced, hl'', hl', rounds, Nat.add_assoc]
    · rw [hlinks₃, ParserState.links_advanced, hl'']
      exact hnext hlt
    · rw [ParserState.links_advanced]
      omega
  refine (ho hrounds hk (stops_dotSymbol hclosed nullSafe _) hround).cast
    (Nat.max_assoc _ _ _).symm ?_
  rw [Derivation.links]
  omega

/-! ### Primary expressions -/

theorem isRead_literal (v : Literal) : (literal v).IsRead := by
  intro levels s rest hl hk hs
  have hv : s.stream.peek.kind = v.token := ParserState.kind_peek_of_cons hk
  rw [production, Parser.primary]
  refine .step (runOn_advance s) ?_
  rw [hv]
  have hend : Accepts (pure (Expr.literal v)) s.advanced levels 0 s.links (.literal v) rest
      s.links := .pure _ hl (ParserState.kinds_advanced_of_cons hk) rfl
  cases v with
  | number x => cases x <;> exact hend
  | _ => exact hend

theorem isRead_name (m : String) : (name m).IsRead := by
  intro levels s rest hl hk hs
  have hcall : (s.advanced.stream.peek.kind == .symbol .leftParen) = false := by
    rw [s.advanced.kind_peek, ParserState.kinds_advanced_of_cons hk]
    have := hs.no_call
    cases rest with
    | nil => rfl
    | cons k ks => simpa using this
  rw [production, Parser.primary]
  refine .step (runOn_advance s) ?_
  rw [ParserState.kind_peek_of_cons hk]
  refine .step (runOn_isNext _ _) ?_
  rw [hcall]
  exact .pure _ hl (ParserState.kinds_advanced_of_cons hk) rfl

/-- Behind balanced tokens and a closing parenthesis stands no arrow. -/
theorem arrowBehindClose_eq_false {s : ParserState} {ks rest : List TokenKind}
    (hk : s.kinds = ks ++ .symbol .rightParen :: rest)
    (hbalanced : ∀ ks', arrowBehind 0 (ks ++ ks') = arrowBehind 0 ks')
    (harrow : rest.head? ≠ some (.symbol .arrow)) :
    arrowBehindClose 0 s.stream.tokens = false := by
  rw [arrowBehind_map]
  change arrowBehind 0 s.kinds = false
  rw [hk, hbalanced, arrowBehind_close]
  simpa using harrow

theorem isRead_call {m : String} {args : Items} (hargs : args.IsRead) : (call m args).IsRead := by
  intro levels s rest hl hk hs
  rw [tokens, List.cons_append, List.cons_append, List.append_assoc, List.singleton_append] at hk
  have hk₁ := ParserState.kinds_advanced_of_cons hk
  have hk₂ := ParserState.kinds_advanced_of_cons hk₁
  have hcall : (s.advanced.stream.peek.kind == .symbol .leftParen) = true := by
    rw [ParserState.kind_peek_of_cons hk₁]
    rfl
  rw [production, Parser.primary]
  refine .step (runOn_advance s) ?_
  rw [ParserState.kind_peek_of_cons hk]
  refine .step (runOn_isNext _ _) ?_
  rw [hcall]
  refine .step (runOn_advance _) (.step (runOn_get _) ?_)
  -- No arrow stands behind the parenthesis that closes the arguments.
  rw [arrowBehindClose_eq_false hk₂ args.arrowBehind_tokens hs.no_arrow, Bool.and_false]
  have hclose : s.advanced.advanced.kinds =
      args.tokens ++ .symbol (Delimiter.closer .parenthesis) :: rest := hk₂
  exact (hargs.list (s := s.advanced.advanced) hl hclose).returning _

theorem isRead_group {e : Derivation .expression} (he : e.IsRead) : (group e).IsRead := by
  intro levels s rest hl hk hs
  rw [tokens, List.cons_append, List.append_assoc, List.singleton_append] at hk
  have hk₁ := ParserState.kinds_advanced_of_cons hk
  rw [production, Parser.primary]
  refine .step (runOn_advance s) ?_
  rw [ParserState.kind_peek_of_cons hk]
  refine .step (runOn_get _) ?_
  -- No arrow stands behind the parenthesis that closes the group.
  rw [arrowBehindClose_eq_false hk₁ e.arrowBehind_tokens hs.no_arrow]
  have hinner := he.nested levels (s := s.advanced) hl hk₁ (Items.stops_closer .parenthesis _ _)
  refine hinner.andThen 0 0 (fun s' hk' hl' => ?_) (Nat.max_zero _) (Nat.max_zero _)
  exact .step (runOn_close hk')
    (.pure _ (Nat.zero_le _) (ParserState.kinds_advanced_of_cons hk') hl')

theorem isRead_list {es : Items} (hes : es.IsRead) : (list es).IsRead := by
  intro levels s rest hl hk hs
  rw [tokens, List.cons_append, List.append_assoc, List.singleton_append] at hk
  rw [production, Parser.primary]
  refine .step (runOn_advance s) ?_
  rw [ParserState.kind_peek_of_cons hk]
  have hclose : s.advanced.kinds = es.tokens ++ .symbol (Delimiter.closer .bracket) :: rest :=
    ParserState.kinds_advanced_of_cons hk
  exact (hes.list (s := s.advanced) hl hclose).returning _

/-! ### Closures -/

theorem arrowBehind_parameters (params : List String) (trailing : Bool) (ks : List TokenKind) :
    arrowBehind 0 (parameterTokens params trailing ++ .symbol .rightParen :: .symbol .arrow :: ks)
      = true := by
  rw [arrowBehind_parameterTokens, arrowBehind_close]
  rfl

/-- Behind a parameter name come the closing parenthesis or a comma and the other parameters. -/
theorem parameterTokens_cons (m : String) (params : List String) (trailing : Bool) :
    (params = [] ∧ parameterTokens (m :: params) trailing = [.identifier m]) ∨
      parameterTokens (m :: params) trailing =
        .identifier m :: .symbol .comma :: parameterTokens params trailing := by
  cases params with
  | nil =>
    cases trailing with
    | false => exact .inl ⟨rfl, rfl⟩
    | true => exact .inr rfl
  | cons next params => exact .inr rfl

/-- Parameters are read up to the closing parenthesis, if there are more rounds than tokens. -/
theorem runOn_parameters (params : List String) (trailing : Bool) :
    ∀ {limit : Nat} {s : ParserState} {ks : List TokenKind},
      s.kinds = parameterTokens params trailing ++ .symbol .rightParen :: ks →
      (parameterTokens params trailing).length < limit →
      ∃ s', runOn (parameters limit) s = (.ok params, s') ∧
        s'.kinds = .symbol .rightParen :: ks ∧ s'.links = s.links := by
  induction params with
  | nil =>
    intro limit s ks hk hlimit
    obtain ⟨limit, rfl⟩ := Nat.exists_eq_succ_of_ne_zero (Nat.ne_of_gt (Nat.zero_lt_of_lt hlimit))
    refine ⟨s, ?_, hk, rfl⟩
    rw [parameters, runOn_bind_of_ok (runOn_isNext _ s), ParserState.kind_peek_of_cons hk]
    rfl
  | cons m params ih =>
    intro limit s ks hk hlimit
    obtain ⟨limit, rfl⟩ := Nat.exists_eq_succ_of_ne_zero (Nat.ne_of_gt (Nat.zero_lt_of_lt hlimit))
    have hname : s.stream.peek.kind = .identifier m := by
      rcases parameterTokens_cons m params trailing with ⟨-, h⟩ | h
      all_goals
        rw [h] at hk
        exact ParserState.kind_peek_of_cons hk
    rw [parameters, runOn_bind_of_ok (runOn_isNext _ s), hname, if_neg (by simp),
      runOn_bind_of_ok (runOn_peek s), hname]
    simp only []
    rw [runOn_bind_of_ok (runOn_discard_advance s), runOn_bind_of_ok (runOn_isNext _ _)]
    rcases parameterTokens_cons m params trailing with ⟨rfl, h⟩ | h
    · rw [h] at hk hlimit
      have hk' : s.advanced.kinds = .symbol .rightParen :: ks :=
        ParserState.kinds_advanced_of_cons hk
      obtain ⟨s', hrun, hks, hls⟩ := ih (s := s.advanced) hk' (Nat.lt_of_succ_lt_succ hlimit)
      refine ⟨s', ?_, hks, hls⟩
      rw [ParserState.kind_peek_of_cons hk', if_neg (by simp), runOn_bind_of_ok hrun, runOn_pure]
    · rw [h] at hk hlimit
      have hk' : s.advanced.kinds =
          .symbol .comma :: (parameterTokens params trailing ++ .symbol .rightParen :: ks) :=
        ParserState.kinds_advanced_of_cons hk
      obtain ⟨s', hrun, hks, hls⟩ := ih (ParserState.kinds_advanced_of_cons hk')
        (Nat.lt_of_succ_lt (Nat.lt_of_succ_lt_succ hlimit))
      refine ⟨s', ?_, hks, hls⟩
      rw [ParserState.kind_peek_of_cons hk', if_pos (by decide),
        runOn_bind_of_ok (runOn_expect hk'), runOn_bind_of_ok hrun, runOn_pure]

theorem accepts_closure {params : List String} {trailing : Bool} {body : Derivation .expression}
    {levels : Nat} {opened : Position} {s : ParserState} {rest : List TokenKind}
    (hbody : body.IsRead) (hl : s.links ≤ maxChain)
    (hk : s.kinds = parameterTokens params trailing ++ .symbol .rightParen :: .symbol .arrow ::
      (body.tokens ++ rest)) (hs : Stops 0 rest) :
    Accepts (Parser.closure (nestedAt levels) opened) s levels (body.nesting + 1)
      (s.links + body.links) (.closure params body.tree) rest s.links := by
  -- The rounds are as many as there are tokens, which are more than those of the parameters.
  have hlimit : (parameterTokens params trailing).length < s.kinds.length := by
    rw [hk, List.length_append, List.length_cons]
    omega
  obtain ⟨s₁, hrun, hk₁, hl₁⟩ := runOn_parameters params trailing hk hlimit
  have hk₂ : s₁.advanced.kinds = .symbol .arrow :: (body.tokens ++ rest) :=
    ParserState.kinds_advanced_of_cons hk₁
  rw [Parser.closure]
  refine .step (runOn_remaining s) (.step hrun ?_)
  refine .step (runOn_close hk₁) (.step (runOn_expect hk₂) ?_)
  have hl₃ : s₁.advanced.advanced.links = s.links := hl₁
  rw [← hl₃] at hl ⊢
  exact (hbody.nested levels hl (ParserState.kinds_advanced_of_cons hk₂)
    (hs.mono (Nat.zero_le _))).returning _

theorem isRead_closure {keyword : Bool} {params : List String} {trailing : Bool}
    {body : Derivation .expression} (hbody : body.IsRead) :
    (closure keyword params trailing body).IsRead := by
  intro levels s rest hl hk hs
  -- The search for the arrow passes over the parameters, with and without the keyword.
  have hparen : ∀ {s : ParserState}, s.kinds = parameterTokens params trailing ++
      .symbol .rightParen :: .symbol .arrow :: (body.tokens ++ rest) →
      arrowBehindClose 0 s.stream.tokens = true := by
    intro s hk
    rw [arrowBehind_map]
    change arrowBehind 0 s.kinds = true
    rw [hk, arrowBehind_parameters]
  rw [production, Parser.primary]
  cases keyword with
  | false =>
    have hk : s.kinds = .symbol .leftParen :: (parameterTokens params trailing ++
        .symbol .rightParen :: .symbol .arrow :: (body.tokens ++ rest)) := by
      rw [hk, tokens, closureHead]
      simp
    have hk₁ := ParserState.kinds_advanced_of_cons hk
    refine .step (runOn_advance s) ?_
    rw [ParserState.kind_peek_of_cons hk]
    refine .step (runOn_get _) ?_
    rw [hparen hk₁]
    exact accepts_closure (s := s.advanced) hbody hl hk₁ hs
  | true =>
    have hk : s.kinds = .identifier "fn" :: .symbol .leftParen ::
        (parameterTokens params trailing ++ .symbol .rightParen :: .symbol .arrow ::
          (body.tokens ++ rest)) := by
      rw [hk, tokens, closureHead]
      simp
    have hk₁ := ParserState.kinds_advanced_of_cons hk
    have hk₂ := ParserState.kinds_advanced_of_cons hk₁
    refine .step (runOn_advance s) ?_
    rw [ParserState.kind_peek_of_cons hk]
    refine .step (runOn_isNext _ _) ?_
    rw [ParserState.kind_peek_of_cons hk₁]
    refine .step (runOn_advance _) (.step (runOn_get _) ?_)
    rw [hparen hk₂]
    exact accepts_closure (s := s.advanced.advanced) hbody hl hk₂ hs

/-! ### Unary minus and conditionals -/

theorem isRead_unary_path {p : Derivation .path} (hp : p.IsRead) : (path p).IsRead := by
  intro levels s rest hl hk hs
  obtain ⟨k, ks, hhead, hstart⟩ := head_tokens_primary p (.inl rfl)
  have hminus : (s.stream.peek.kind == .symbol .minus) = false := by
    rw [tokens, hhead] at hk
    rw [ParserState.kind_peek_of_cons hk]
    refine beq_eq_false_iff_ne.2 ?_
    rintro rfl
    exact absurd hstart (by decide)
  rw [production, Parser.unary]
  refine .step (runOn_isNext _ s) ?_
  rw [hminus]
  exact hp levels hl hk hs

theorem isRead_minus {x : Derivation .unary} (hx : x.IsRead) : (minus x).IsRead := by
  intro levels s rest hl hk hs
  rw [production, Parser.unary]
  refine .step (runOn_isNext _ s) ?_
  rw [ParserState.kind_peek_of_cons hk]
  refine .step (runOn_discard_advance s) ?_
  exact (hx.nested_unary levels (s := s.advanced) hl (ParserState.kinds_advanced_of_cons hk)
    hs).returning _

theorem isRead_condition {c : Derivation (.binary .coalesce)} (hc : c.IsRead) :
    (condition c).IsRead := by
  intro levels s rest hl hk hs
  -- Nothing that could continue the condition follows, not even a question mark.
  have hzero : headStrength rest = 0 :=
    Nat.le_zero.1 (Nat.le_trans hs.strength (hold_le (condition c)))
  rw [production, conditional]
  refine (hc levels hl hk (hs.mono ?_)).andThen 0 0 (fun s' hk' hl' => ?_) (Nat.max_zero _)
    (Nat.max_zero _)
  · exact Nat.le_trans (hold_le (condition c)) (Nat.zero_le _)
  · have hquestion : (s'.stream.peek.kind == .symbol .question) = false := by
      refine beq_eq_false_iff_ne.2 fun h => ?_
      rw [← hk', ← s'.strength_peek, h] at hzero
      exact absurd hzero (by decide)
    refine .step (runOn_isNext _ s') ?_
    rw [hquestion]
    exact .pure _ (Nat.zero_le _) hk' hl'

theorem stops_question {c : Derivation (.binary .coalesce)} (hclosed : c.isOpen = false)
    (ks : List TokenKind) : Stops c.hold (.symbol .question :: ks) := by
  refine .cons ?_ (by simp) (by simp) ks
  rw [hold_of_closed hclosed]
  exact Nat.le_refl 1

theorem isRead_elvis {c : Derivation (.binary .coalesce)} {o : Derivation .expression}
    (hclosed : c.isOpen = false) (hc : c.IsRead) (ho : o.IsRead) : (elvis c o).IsRead := by
  intro levels s rest hl hk hs
  rw [tokens, List.append_assoc] at hk
  rw [production, conditional]
  refine (hc levels hl hk (stops_question hclosed _)).andThen (o.nesting + 1) (s.links + o.links)
    (fun s' hk' hl' => ?_) rfl (Nat.add_max_add_left _ _ _)
  have hk₁ := ParserState.kinds_advanced_of_cons hk'
  have hl₂ : s'.advanced.advanced.links = s.links := hl'
  refine .step (runOn_isNext _ s') ?_
  rw [ParserState.kind_peek_of_cons hk']
  refine .step (runOn_discard_advance s') (.step (runOn_isNext _ _) ?_)
  rw [ParserState.kind_peek_of_cons hk₁]
  refine .step (runOn_discard_advance _) ?_
  rw [← hl₂] at hl ⊢
  exact (ho.nested levels hl (ParserState.kinds_advanced_of_cons hk₁) hs).returning _

theorem isRead_ternary {c : Derivation (.binary .coalesce)} {t o : Derivation .expression}
    (hclosed : c.isOpen = false) (hc : c.IsRead) (ht : t.IsRead) (ho : o.IsRead) :
    (ternary c t o).IsRead := by
  intro levels s rest hl hk hs
  rw [tokens, List.append_assoc, List.cons_append, List.append_assoc, List.cons_append] at hk
  rw [production, conditional]
  refine (hc levels hl hk (stops_question hclosed _)).andThen
    (max (t.nesting + 1) (o.nesting + 1)) (s.links + max t.links o.links)
    (fun s' hk' hl' => ?_) rfl (Nat.add_max_add_left _ _ _)
  have hk₁ := ParserState.kinds_advanced_of_cons hk'
  have hl₁ : s'.advanced.links = s.links := hl'
  -- No expression starts with a colon, so the short form is ruled out.
  have hcolon : (s'.advanced.stream.peek.kind == .symbol .colon) = false := by
    obtain ⟨k, ks, hhead, hstart⟩ := t.head_tokens
    rw [hhead] at hk₁
    rw [ParserState.kind_peek_of_cons hk₁]
    refine beq_eq_false_iff_ne.2 ?_
    rintro rfl
    exact absurd hstart (by decide)
  refine .step (runOn_isNext _ s') ?_
  rw [ParserState.kind_peek_of_cons hk']
  refine .step (runOn_discard_advance s') (.step (runOn_isNext _ _) ?_)
  rw [hcolon]
  rw [← hl₁] at hl ⊢
  refine (ht.nested levels hl hk₁ (.cons (Nat.zero_le _) (by simp) (by simp) _)).andThen
    (o.nesting + 1) (s'.advanced.links + o.links) (fun s₂ hk₂ hl₂ => ?_) rfl
    (Nat.add_max_add_left _ _ _)
  have hl₃ : s₂.advanced.links = s'.advanced.links := hl₂
  refine .step (runOn_expect hk₂) ?_
  rw [← hl₃] at hl ⊢
  exact (ho.nested levels hl (ParserState.kinds_advanced_of_cons hk₂) hs).returning _

end Derivation

/-! ### All derivations -/

mutual

/-- Every greedy derivation is read. -/
theorem Derivation.isReadBy : {n : Nonterminal} → (t : Derivation n) → t.IsGreedy → t.IsReadBy
  | _, .condition c, h => Derivation.isRead_condition (c.isReadBy h).isRead
  | _, .elvis c o, h =>
    Derivation.isRead_elvis h.1 (c.isReadBy h.2.1).isRead (o.isReadBy h.2.2)
  | _, .ternary c t o, h =>
    Derivation.isRead_ternary h.1 (c.isReadBy h.2.1).isRead (t.isReadBy h.2.2.1)
      (o.isReadBy h.2.2.2)
  | _, .operand _ x, h => Derivation.isReadBy_operand (x.isReadBy h).isRead
  | _, .operation _ _ _ l r, h =>
    Derivation.isReadBy_operation h.1 (l.isReadBy h.2.1) (r.isReadBy h.2.2).isRead
  | _, .path p, h => Derivation.isRead_unary_path (p.isReadBy h).isRead
  | _, .minus x, h => Derivation.isRead_minus (x.isReadBy h)
  | _, .primary p, h => Derivation.isReadBy_primary (p.isReadBy h)
  | _, .step o _ _, h => Derivation.isReadBy_step h.1 (o.isReadBy h.2)
  | _, .stepCall o _ _ args, h =>
    Derivation.isReadBy_stepCall h.1 (o.isReadBy h.2.1) (args.isRead h.2.2)
  | _, .literal v, _ => Derivation.isRead_literal v
  | _, .name m, _ => Derivation.isRead_name m
  | _, .call _ args, h => Derivation.isRead_call (args.isRead h)
  | _, .group e, h => Derivation.isRead_group (e.isReadBy h)
  | _, .list es, h => Derivation.isRead_list (es.isRead h)
  | _, .closure _ _ _ body, h => Derivation.isRead_closure (body.isReadBy h)

theorem Items.isRead : (es : Items) → es.IsGreedy → es.IsRead
  | .none, _ => Items.isRead_none
  | .last e, h => Items.isRead_last (e.isReadBy h)
  | .more e rest, h => Items.isRead_more (e.isReadBy h.1) (rest.isRead h.2)

end

end PathQuery
