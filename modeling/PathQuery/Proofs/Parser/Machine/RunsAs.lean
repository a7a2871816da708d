/-
Runs of the machine beside runs of the parser.

* **`Machine.StandsAt`** — the machine is in a sound state and in front of the same tokens as the
  parser;
* **`Machine.RunsAs`** — a run of the machine meets no trap, has the answer that the parser has, and
  leaves the machine where the parser is left;
* **`Machine.RunsAs.bind`, `Machine.RunsAs.step`, `Machine.RunsAs.parser`** — two productions in
  turn, and steps that only one of the two sides takes;
* **`Machine.RunsAs.peek`, `Machine.RunsAs.nested`, ...** — one rule for each step of both;
* **`Machine.ReadsAs`** — a production whose trees have been built and that takes a token.

Design notes: the invariant of the state is the same for every production, after an error too; only
the depth differs, by one for each level.  So it is a part of `RunsAs`, and what is left for a
condition is what holds behind an answer.
-/
import PathQuery.Proofs.Parser.Machine
import PathQuery.Proofs.Parser.Places
import PathQuery.Proofs.Expr.Nodes

namespace PathQuery

/-- Whether a node is no literal of the least integer. -/
def Expr.isAboveLeast : Expr → Bool
  | .literal (.number (.integer n)) => Int64.minValue < n
  | _ => true

/-- The token at the front is the first one, or that for the end. -/
theorem TokenStream.head?_withEnd (s : TokenStream) : s.withEnd.head? = some s.peek := by
  rw [withEnd, peek]
  cases s.tokens <;> rfl

namespace ParserState

variable {s s' s'' : ParserState}

theorem kind_peek_of_kinds_eq_nil (h : s.kinds = []) : s.stream.peek.kind = .endOfInput := by
  rw [kind_peek, h]
  rfl

/-- The state `s'` is behind `s` by one token at least, on the same path. -/
structure Behind (s s' : ParserState) : Prop where
  links : s'.links = s.links
  lt : s'.kinds.length < s.kinds.length

theorem behind_advanced (h : s.stream.peek.kind ≠ .endOfInput) : s.Behind s.advanced where
  links := rfl
  lt := by rw [s.kinds_eq_cons h]; exact Nat.lt_succ_self _

theorem Behind.trans (h : s.Behind s') (h' : s'.Behind s'') : s.Behind s'' :=
  ⟨h'.links.trans h.links, Nat.lt_trans h'.lt h.lt⟩

/-- A round of a chain takes a token and counts a link for it. -/
theorem Behind.of_linked (h : s.linked.advanced.Behind s')
    (hend : s.stream.peek.kind ≠ .endOfInput) :
    s'.links = s.links + 1 ∧ s'.kinds.length < s.kinds.length :=
  ⟨h.links, Nat.lt_trans h.lt (behind_advanced hend).lt⟩

end ParserState

namespace Machine

variable {α β : Type} {ts : List Token} {d : Nat} {c c' : State} {s s' : ParserState}

/-- The state behind the first token. -/
def State.advanced (c : State) : State := { c with current := c.current + 1 }

/-- The state with another depth. -/
def State.withDepth (c : State) (depth : Nat) : State := { c with depth := depth }

/-- The state with another count of links. -/
def State.withLinks (c : State) (links : Nat) : State := { c with links := links }

/-- The state with one more tree. -/
def State.withTree (c : State) (e : Expr) : State := { c with built := e :: c.built }

/-! ### States -/

/-- The machine, on the tokens `ts` and at the depth `d`, is where the parser is, and its state is
sound: the tokens at hand are such as texts have, and all trees are free of the least integer. -/
structure StandsAt (ts : List Token) (d : Nat) (c : State) (s : ParserState) : Prop where
  tokens : c.tokens = ts
  ahead : ts.drop c.current = s.stream.withEnd
  depth : c.depth = d
  links : c.links = s.links
  links_le : s.links ≤ maxChain
  lexed : ∀ k ∈ s.kinds, k.IsLexed
  built : ∀ e ∈ c.built, e.all Expr.isAboveLeast = true

namespace StandsAt

/-- The index is inside of the tokens, and the token there is the one at the front. -/
theorem getElem?_current (h : StandsAt ts d c s) : ts[c.current]? = some s.stream.peek := by
  rw [← List.head?_drop, h.ahead, s.stream.head?_withEnd]

theorem current_lt (h : StandsAt ts d c s) : c.current < ts.length :=
  (List.getElem?_eq_some_iff.1 h.getElem?_current).1

/-- There are as many rounds as no loop needs. -/
theorem kinds_length_lt (h : StandsAt ts d c s) : s.kinds.length < ts.length := by
  have hlength := congrArg List.length h.ahead
  rw [List.length_drop, TokenStream.withEnd, List.length_append, List.length_singleton] at hlength
  rw [ParserState.kinds, List.length_map]
  omega

/-- The token for the end comes last. -/
theorem kinds_eq_nil (h : StandsAt ts d c s) (hend : s.stream.peek.kind = .endOfInput) :
    s.kinds = [] := by
  by_contra hne
  obtain ⟨k, ks, hk⟩ := List.exists_cons_of_ne_nil hne
  rw [ParserState.kind_peek_of_cons hk] at hend
  have hlexed := h.lexed k (hk ▸ List.mem_cons_self)
  rw [hend] at hlexed
  exact hlexed

theorem isLexed_peek (h : StandsAt ts d c s) (hend : s.stream.peek.kind ≠ .endOfInput) :
    s.stream.peek.kind.IsLexed :=
  h.lexed _ (by rw [s.kinds_eq_cons hend]; exact List.mem_cons_self)

theorem linked (h : StandsAt ts d c s) (hlinks : s.links < maxChain) :
    StandsAt ts d (c.withLinks (s.links + 1)) s.linked :=
  { h with links := rfl, links_le := hlinks }

theorem withLinks (h : StandsAt ts d c s) {links : Nat} (hlinks : links ≤ maxChain) :
    StandsAt ts d (c.withLinks links) (s.withLinks links) :=
  { h with links := rfl, links_le := hlinks }

theorem withDepth (h : StandsAt ts d c s) (d' : Nat) : StandsAt ts d' (c.withDepth d') s :=
  { h with depth := rfl }

theorem withTree (h : StandsAt ts d c s) {e : Expr} (he : e.all Expr.isAboveLeast = true) :
    StandsAt ts d (c.withTree e) s :=
  { h with built := List.forall_mem_cons.2 ⟨he, h.built⟩ }

/-- Both take a token. -/
theorem advanced (h : StandsAt ts d c s) (hend : s.stream.peek.kind ≠ .endOfInput) :
    StandsAt ts d c.advanced s.advanced := by
  have hkinds := s.kinds_eq_cons hend
  refine { h with ahead := ?_, lexed := fun k hk => ?_ }
  · cases htokens : s.stream.tokens with
    | nil => rw [ParserState.kinds, htokens] at hkinds; exact absurd hkinds (by simp)
    | cons t rest =>
      show ts.drop (c.current + 1) = _
      rw [← List.tail_drop, h.ahead, TokenStream.withEnd, TokenStream.withEnd, htokens,
        ParserState.advanced, TokenStream.tail, htokens]
      rfl
  · exact h.lexed k (by rw [hkinds]; exact List.mem_cons_of_mem _ hk)

/-- The parser stays at the end as well. -/
theorem advanced_eq (h : StandsAt ts d c s) (hend : s.stream.peek.kind = .endOfInput) :
    s.advanced = s := by
  have htokens : s.stream.tokens = [] := List.map_eq_nil_iff.1 (h.kinds_eq_nil hend)
  rw [ParserState.advanced, TokenStream.tail, htokens, List.tail_nil, ← htokens]

/-- A parenthesis that has been taken stands one step back. -/
theorem drop_current (h : StandsAt ts d c s) (hend : s.stream.peek.kind ≠ .endOfInput) :
    ts.drop c.current = s.stream.peek :: s.advanced.stream.withEnd := by
  rw [List.drop_eq_getElem_cons h.current_lt, ← (h.advanced hend).ahead]
  rw [(List.getElem?_eq_some_iff.1 h.getElem?_current).2]
  rfl

end StandsAt

/-! ### Runs of the machine -/

theorem runOn_bind (q : Machine α) (f : α → Machine β) (c : State) :
    runOn (q >>= f) c = match runOn q c with
      | .ok (.ok a, c) => runOn (f a) c
      | .ok (.error e, c) => .ok (.error e, c)
      | .error t => .error t := by
  show (q c >>= fun r => ExceptT.bindCont f r.1 r.2) = _
  rw [runOn, ExceptT.run, StateT.run]
  rcases q c with t | ⟨e | a, c⟩ <;> rfl

theorem runOn_bind_of_ok {q : Machine α} {a : α} (h : runOn q c = .ok (.ok a, c'))
    (f : α → Machine β) : runOn (q >>= f) c = runOn (f a) c' := by
  rw [runOn_bind, h]

theorem runOn_bind_of_error {q : Machine α} {e : ParseError} (h : runOn q c = .ok (.error e, c'))
    (f : α → Machine β) : runOn (q >>= f) c = .ok (.error e, c') := by
  rw [runOn_bind, h]

theorem runOn_get (c : State) : runOn (get : Machine State) c = .ok (.ok c, c) := rfl

theorem runOn_rounds (c : State) : runOn rounds c = .ok (.ok c.tokens.length, c) := rfl

theorem runOn_withLinks (links : Nat) (c : State) :
    runOn (modify fun c => { c with links := links }) c = .ok (.ok (), c.withLinks links) := rfl

theorem runOn_build (e : Expr) (c : State) : runOn (build e) c = .ok (.ok e, c.withTree e) := rfl

theorem runOn_tokenAt {index : Nat} {token : Token} (h : c.tokens[index]? = some token) :
    runOn (tokenAt index) c = .ok (.ok token, c) := by
  rw [tokenAt, runOn_bind_of_ok (runOn_get c), h]
  rfl

namespace StandsAt

theorem runOn_peek (h : StandsAt ts d c s) : runOn peek c = .ok (.ok s.stream.peek, c) := by
  rw [peek, runOn_bind_of_ok (runOn_get c)]
  exact runOn_tokenAt (by rw [h.tokens]; exact h.getElem?_current)

theorem runOn_isNext (h : StandsAt ts d c s) (symbol : Symbol) :
    runOn (isNext symbol) c = .ok (.ok (s.stream.peek.kind == .symbol symbol), c) := by
  rw [isNext, runOn_bind_of_ok h.runOn_peek]
  rfl

theorem runOn_advance (h : StandsAt ts d c s) (hend : s.stream.peek.kind ≠ .endOfInput) :
    runOn advance c = .ok (.ok s.stream.peek, c.advanced) := by
  rw [advance, runOn_bind_of_ok h.runOn_peek, if_pos hend]
  rfl

theorem runOn_advance_end (h : StandsAt ts d c s) (hend : s.stream.peek.kind = .endOfInput) :
    runOn advance c = .ok (.ok s.stream.peek, c) := by
  rw [advance, runOn_bind_of_ok h.runOn_peek, if_neg (not_not.2 hend)]
  rfl

theorem runOn_discard_advance (h : StandsAt ts d c s) (hend : s.stream.peek.kind ≠ .endOfInput) :
    runOn (discard advance) c = .ok (.ok (), c.advanced) := by
  show runOn (advance >>= fun _ => pure ()) c = _
  rw [runOn_bind_of_ok (h.runOn_advance hend)]
  rfl

end StandsAt

/-- A level is counted in front of a production, and set back behind it whatever the answer is. -/
theorem runOn_nested {q : Machine α} {answer : Except ParseError α} (hd : c.depth < maxNesting)
    (hq : runOn q (c.withDepth (c.depth + 1)) = .ok (answer, c')) (hc' : c'.depth = c.depth + 1) :
    runOn (nested q) c = .ok (answer, c'.withDepth c.depth) := by
  have hlift : runOn (ExceptT.lift q.run) (c.withDepth (c.depth + 1)) = .ok (.ok answer, c') := by
    show (q (c.withDepth (c.depth + 1)) >>= fun r => Except.ok (Except.ok r.1, r.2)) = _
    rw [show q (c.withDepth (c.depth + 1)) = .ok (answer, c') from hq]
    rfl
  rw [nested, runOn_bind_of_ok (runOn_get c), if_neg (Nat.not_le.2 hd)]
  have hdown : runOn (modify fun c => { c with depth := c.depth + 1 }) c =
    .ok (.ok (), c.withDepth (c.depth + 1)) := rfl
  rw [runOn_bind_of_ok hdown, runOn_bind_of_ok hlift, runOn_bind_of_ok (runOn_get c'), hc']
  rcases answer with e | a <;> rfl

/-! ### Both runs -/

/-- A run of the machine from `c` goes as that of the parser from `s`: no trap stops it, the answers
are the same, and so are the places behind them; no tree is lost, and behind an answer stands
`Q`. -/
def RunsAs (ts : List Token) (d : Nat) (q : Machine α) (p : Parser α) (c : State) (s : ParserState)
    (Q : α → List Expr → ParserState → Prop) : Prop :=
  ∃ c', runOn q c = .ok ((Parser.runOn p s).1, c') ∧ StandsAt ts d c' (Parser.runOn p s).2 ∧
    c.built <:+ c'.built ∧ ∀ a, (Parser.runOn p s).1 = .ok a → Q a c'.built (Parser.runOn p s).2

namespace RunsAs

variable {γ : Type} {q : Machine α} {p : Parser α} {f : α → Machine β} {g : α → Parser β}
  {Q : α → List Expr → ParserState → Prop} {R : β → List Expr → ParserState → Prop}

theorem pure {a : α} (h : StandsAt ts d c s) (hQ : Q a c.built s) :
    RunsAs ts d (Pure.pure a) (Pure.pure a) c s Q :=
  ⟨c, rfl, h, List.suffix_rfl, fun _ ha => Except.ok.inj ha ▸ hQ⟩

theorem throw {e : ParseError} (h : StandsAt ts d c s) :
    RunsAs ts d (MonadExcept.throw e : Machine α) (MonadExcept.throw e) c s Q :=
  ⟨c, rfl, h, List.suffix_rfl, fun _ ha => nomatch ha⟩

theorem mono {Q' : α → List Expr → ParserState → Prop} (h : RunsAs ts d q p c s Q)
    (hQ : ∀ a built s', Q a built s' → Q' a built s') : RunsAs ts d q p c s Q' := by
  obtain ⟨c', hq, hc', hkept, ha⟩ := h
  exact ⟨c', hq, hc', hkept, fun a h => hQ _ _ _ (ha a h)⟩

/-- Two productions in turn. -/
theorem bind (h : RunsAs ts d q p c s Q)
    (hf : ∀ a c' s', StandsAt ts d c' s' → Q a c'.built s' → RunsAs ts d (f a) (g a) c' s' R) :
    RunsAs ts d (q >>= f) (p >>= g) c s R := by
  obtain ⟨c', hq, hc', hkept, ha⟩ := h
  rcases hp : Parser.runOn p s with ⟨e | a, s'⟩ <;> rw [hp] at hq hc' ha
  · refine ⟨c', ?_, ?_, hkept, ?_⟩
    · rw [runOn_bind_of_error hq, Parser.runOn_bind_of_error hp]
    · rw [Parser.runOn_bind_of_error hp]
      exact hc'
    · rw [Parser.runOn_bind_of_error hp]
      exact fun _ hb => nomatch hb
  · obtain ⟨c'', hf', hc'', hkept', hb⟩ := hf a c' s' hc' (ha a rfl)
    rw [RunsAs, runOn_bind_of_ok hq, Parser.runOn_bind_of_ok hp]
    exact ⟨c'', hf', hc'', hkept.trans hkept', hb⟩

/-- Where the first of two productions only fails, both sides stop. -/
theorem stop (h : RunsAs ts d q p c s fun _ _ _ => False) :
    RunsAs ts d (q >>= f) (p >>= g) c s R :=
  h.bind fun _ _ _ _ hf => hf.elim

/-- A step of the machine alone, which loses no tree. -/
theorem step {b : γ} {q : Machine γ} {f : γ → Machine α} (hq : runOn q c = .ok (.ok b, c'))
    (hkept : c.built <:+ c'.built) (h : RunsAs ts d (f b) p c' s Q) :
    RunsAs ts d (q >>= f) p c s Q := by
  obtain ⟨c'', hf, hc'', hkept', ha⟩ := h
  rw [RunsAs, runOn_bind_of_ok hq]
  exact ⟨c'', hf, hc'', hkept.trans hkept', ha⟩

/-- A step of the machine alone that only looks. -/
theorem look {b : γ} {q : Machine γ} {f : γ → Machine α} (hq : runOn q c = .ok (.ok b, c))
    (h : RunsAs ts d (f b) p c s Q) : RunsAs ts d (q >>= f) p c s Q :=
  .step hq List.suffix_rfl h

/-- A step of the parser alone. -/
theorem parser {b : γ} {p : Parser γ} {g : γ → Parser α}
    (hp : Parser.runOn p s = (.ok b, s')) (h : RunsAs ts d q (g b) c s' Q) :
    RunsAs ts d q (p >>= g) c s Q := by
  rw [RunsAs, Parser.runOn_bind_of_ok hp]
  exact h

/-! ### Steps -/

theorem peek {f : Token → Machine α} {g : Token → Parser α} (h : StandsAt ts d c s)
    (hf : RunsAs ts d (f s.stream.peek) (g s.stream.peek) c s Q) :
    RunsAs ts d (Machine.peek >>= f) (Parser.peek >>= g) c s Q :=
  .look h.runOn_peek (.parser (Parser.runOn_peek s) hf)

theorem isNext {f : Bool → Machine α} {g : Bool → Parser α} {symbol : Symbol}
    (h : StandsAt ts d c s)
    (hf : RunsAs ts d (f (s.stream.peek.kind == .symbol symbol))
      (g (s.stream.peek.kind == .symbol symbol)) c s Q) :
    RunsAs ts d (Machine.isNext symbol >>= f) (Parser.isNext symbol >>= g) c s Q :=
  .look (h.runOn_isNext symbol) (.parser (Parser.runOn_isNext symbol s) hf)

theorem advance {f : Token → Machine α} {g : Token → Parser α} (h : StandsAt ts d c s)
    (hend : s.stream.peek.kind ≠ .endOfInput)
    (hf : RunsAs ts d (f s.stream.peek) (g s.stream.peek) c.advanced s.advanced Q) :
    RunsAs ts d (Machine.advance >>= f) (Parser.advance >>= g) c s Q :=
  .step (h.runOn_advance hend) List.suffix_rfl (.parser (Parser.runOn_advance s) hf)

theorem discardAdvance {f : Unit → Machine α} {g : Unit → Parser α} (h : StandsAt ts d c s)
    (hend : s.stream.peek.kind ≠ .endOfInput)
    (hf : RunsAs ts d (f ()) (g ()) c.advanced s.advanced Q) :
    RunsAs ts d (discard Machine.advance >>= f) (discard Parser.advance >>= g) c s Q :=
  .step (h.runOn_discard_advance hend) List.suffix_rfl
    (.parser (Parser.runOn_discard_advance s) hf)

/-- The last step, if it takes a token. -/
theorem discardAdvance_last {Q : Unit → List Expr → ParserState → Prop} (h : StandsAt ts d c s)
    (hend : s.stream.peek.kind ≠ .endOfInput) (hQ : Q () c.built s.advanced) :
    RunsAs ts d (discard Machine.advance) (discard Parser.advance) c s Q :=
  ⟨c.advanced, h.runOn_discard_advance hend, h.advanced hend, List.suffix_rfl, fun _ _ => hQ⟩

theorem unexpected (h : StandsAt ts d c s) (expected : Expected) :
    RunsAs ts d (Machine.unexpected expected) (Parser.unexpected expected : Parser α) c s Q :=
  .peek h (.throw h)

/-- A tree that only the machine keeps. -/
theorem build {e : Expr} {Q : Expr → List Expr → ParserState → Prop} (h : StandsAt ts d c s)
    (he : e.all Expr.isAboveLeast = true) (hQ : Q e (e :: c.built) s) :
    RunsAs ts d (Machine.build e) (Pure.pure e) c s Q :=
  ⟨c.withTree e, runOn_build e c, h.withTree he, List.suffix_cons _ _,
    fun _ ha => Except.ok.inj ha ▸ hQ⟩

theorem link {f : Unit → Machine α} {g : Unit → Parser α} (h : StandsAt ts d c s)
    (hf : s.links < maxChain → RunsAs ts d (f ()) (g ()) (c.withLinks (s.links + 1)) s.linked Q) :
    RunsAs ts d (Machine.link >>= f) (Parser.link >>= g) c s Q := by
  by_cases hfull : maxChain ≤ s.links
  · -- Both complain about the token at the front.
    have hmachine : runOn Machine.link c =
        .ok (.error ⟨.tooDeep maxChain, s.stream.peek.position⟩, c) := by
      rw [Machine.link, runOn_bind_of_ok (runOn_get c), h.links, if_pos hfull,
        runOn_bind_of_ok h.runOn_peek]
      rfl
    have hparser : Parser.runOn Parser.link s =
        (.error ⟨.tooDeep maxChain, s.stream.peek.position⟩, s) := by
      rw [Parser.runOn_link, if_pos hfull]
    rw [RunsAs, runOn_bind_of_error hmachine, Parser.runOn_bind_of_error hparser]
    exact ⟨c, rfl, h, List.suffix_rfl, fun _ ha => nomatch ha⟩
  · have hmachine : runOn Machine.link c = .ok (.ok (), c.withLinks (s.links + 1)) := by
      rw [Machine.link, runOn_bind_of_ok (runOn_get c), h.links, if_neg hfull, ← h.links]
      rfl
    refine .step hmachine List.suffix_rfl (.parser ?_ (hf (Nat.lt_of_not_le hfull)))
    rw [Parser.runOn_link, if_neg hfull]

/-- The required symbol is taken. -/
theorem expect (h : StandsAt ts d c s) (symbol : Symbol) (expected : Expected) :
    RunsAs ts d (Machine.expect symbol expected) (Parser.expect symbol expected) c s
      fun _ built s' => built = c.built ∧ s.Behind s' := by
  refine .isNext h ?_
  split
  case isTrue hnext =>
    have hkind : s.stream.peek.kind = .symbol symbol := eq_of_beq hnext
    have hend : s.stream.peek.kind ≠ .endOfInput := by rw [hkind]; exact TokenKind.noConfusion
    exact .discardAdvance_last h hend ⟨rfl, s.behind_advanced hend⟩
  case isFalse => exact .unexpected h expected

/-- The closing delimiter is taken. -/
theorem close (h : StandsAt ts d c s) (delimiter : Delimiter) (opened : Position) :
    RunsAs ts d (Machine.close delimiter opened) (Parser.close delimiter opened) c s
      fun _ built s' => built = c.built ∧ s.Behind s' := by
  refine .peek h ?_
  split
  case isTrue hkind =>
    have hend : s.stream.peek.kind ≠ .endOfInput := by rw [hkind]; exact TokenKind.noConfusion
    exact .discardAdvance_last h hend ⟨rfl, s.behind_advanced hend⟩
  case isFalse =>
    split
    · exact .throw h
    · exact .unexpected h _

/-- A loop behind which the links are set back; the machine has rounds for it. -/
theorem restoring {loop : Nat → α → Machine β} {loop' : α → Parser β}
    (hfirst : RunsAs ts d q p c s Q)
    (hloop : ∀ a c' s', StandsAt ts d c' s' → Q a c'.built s' →
      RunsAs ts d (loop ts.length a) (loop' a) c' s' fun b built s'' =>
        R b built (s''.withLinks s'.links)) :
    RunsAs ts d
      (do
        let x ← q
        let links := (← get).links
        let result ← loop (← rounds) x
        modify fun c => { c with links := links }
        return result)
      (do
        let x ← p
        let links := (← get).links
        let result ← loop' x
        modify fun s => { s with links := links }
        return result) c s R := by
  refine hfirst.bind fun a c' s' hc' ha => ?_
  refine .look (runOn_get c') (.parser (Parser.runOn_get s') ?_)
  refine .look (runOn_rounds c') ?_
  rw [hc'.tokens, hc'.links]
  refine (hloop a c' s' hc' ha).bind fun b c'' s'' hc'' hb => ?_
  refine .step (runOn_withLinks s'.links c'') List.suffix_rfl ?_
  exact .parser (Parser.runOn_withLinks s'.links s'') (.pure (hc''.withLinks hc'.links_le) hb)

/-- One level further down, where there is one. -/
theorem nested (h : StandsAt ts d c s) (hd : d < maxNesting)
    (hrun : ∀ c, StandsAt ts (d + 1) c s → RunsAs ts (d + 1) q p c s Q) :
    RunsAs ts d (Machine.nested q) p c s Q := by
  obtain ⟨c', hq, hc', hkept, ha⟩ := hrun _ (h.withDepth (d + 1))
  refine ⟨c'.withDepth d, ?_, hc'.withDepth d, hkept, ha⟩
  have hdepth := h.depth
  subst hdepth
  exact runOn_nested hd hq hc'.depth

/-- Where the levels are used up, both complain. -/
theorem nested_tooDeep (h : StandsAt ts maxNesting c s) :
    RunsAs ts maxNesting (Machine.nested q) Parser.tooDeep c s Q := by
  have hmachine : runOn (Machine.nested q) c =
      .ok (.error ⟨.tooDeep maxNesting, s.stream.peek.position⟩, c) := by
    rw [Machine.nested, runOn_bind_of_ok (runOn_get c), h.depth, if_pos (Nat.le_refl _),
      runOn_bind_of_ok h.runOn_peek]
    rfl
  exact ⟨c, hmachine, h, List.suffix_rfl, fun _ ha => nomatch ha⟩

end RunsAs

/-- The tree `e` is one of those built, and from `s` on a token at least has been taken for it. -/
structure Took (s : ParserState) (e : Expr) (built : List Expr) (s' : ParserState) : Prop where
  mem : e ∈ built
  behind : s.Behind s'

/-- From further in front as many tokens have been taken, and more. -/
theorem Took.from_behind {e : Expr} {built : List Expr} {s'' : ParserState} (h : s.Behind s')
    (he : Took s' e built s'') : Took s e built s'' := ⟨he.mem, h.trans he.behind⟩

/-- A production of the machine goes as one of the parser wherever both stand at the same tokens. -/
def ReadsAs (ts : List Token) (d : Nat) (q : Machine Expr) (p : Parser Expr) : Prop :=
  ∀ c s, StandsAt ts d c s → RunsAs ts d q p c s (Took s)

end Machine

end PathQuery
