/-
What a run of the parser comes to.

* **`Parser.Accepts`** — the outcome of a run, given how many levels and links it takes: the answer
  within the limits, an error beyond them;
* **`Parser.Accepts.bind`** — two runs, one behind the other;
* **`Parser.Accepts.link`, `Parser.Accepts.deeper`** — the two counts, each one step further;
* **`Parser.Accepts.restoring`** — a chain sets the links back to what they were.

Design notes: all counts are exact, so that whether a run ends in an error, and in which one, can be
read off them.
-/
import PathQuery.Proofs.Parser.Runs

namespace PathQuery

namespace Parser

variable {α β : Type} {levels nesting peak links : Nat} {rest : List TokenKind}

/-- What a run of `p` from `s` comes to if it takes `nesting` of the levels at hand and `peak`
links at once: the answer `a` in front of `rest`, or the error of a limit that is not kept. -/
inductive Accepts (p : Parser α) (s : ParserState) (levels nesting peak : Nat) (a : α)
    (rest : List TokenKind) (links : Nat) : Prop where
  | answer (s' : ParserState) (nesting_le : nesting ≤ levels) (peak_le : peak ≤ maxChain)
      (run : runOn p s = (.ok a, s')) (kinds : s'.kinds = rest) (ofLinks : s'.links = links)
  | nested (position : Position) (s' : ParserState) (lt_nesting : levels < nesting)
      (run : runOn p s = (.error ⟨.tooDeep maxNesting, position⟩, s'))
  | chained (position : Position) (s' : ParserState) (lt_peak : maxChain < peak)
      (run : runOn p s = (.error ⟨.tooDeep maxChain, position⟩, s'))

namespace Accepts

theorem pure {s : ParserState} (a : α) (hp : peak ≤ maxChain) (hk : s.kinds = rest)
    (hl : s.links = links) : Accepts (pure a) s levels 0 peak a rest links :=
  .answer s (Nat.zero_le _) hp rfl hk hl

/-- A run that amounts to another one. -/
theorem of_eq {p : Parser α} {q : Parser α} {s s₁ : ParserState} {a : α}
    (h : runOn p s = runOn q s₁) (hq : Accepts q s₁ levels nesting peak a rest links) :
    Accepts p s levels nesting peak a rest links := by
  cases hq with
  | answer s' hn hp run hk hl => exact .answer s' hn hp (h.trans run) hk hl
  | nested position s' hn run => exact .nested position s' hn (h.trans run)
  | chained position s' hp run => exact .chained position s' hp (h.trans run)

/-- Two runs, one behind the other; the second one only counts if the first one keeps the limits. -/
theorem bind {p : Parser α} {f : α → Parser β} {s : ParserState} {a : α} {b : β}
    {nesting' peak' links' : Nat} {rest' : List TokenKind}
    (hp : Accepts p s levels nesting peak a rest links)
    (hf : ∀ s', s'.kinds = rest → s'.links = links →
      Accepts (f a) s' levels nesting' peak' b rest' links') :
    Accepts (p >>= f) s levels (max nesting nesting') (max peak peak') b rest' links' := by
  cases hp with
  | nested position s' hn run =>
    exact .nested position s' (by omega) (runOn_bind_of_error run f)
  | chained position s' hp run =>
    exact .chained position s' (by omega) (runOn_bind_of_error run f)
  | answer s' hn hp run hk hl =>
    -- The second run starts where the first one has left off, and its error is that of both.
    cases hf s' hk hl with
    | answer s'' hn' hp' run' hk' hl' =>
      exact .answer s'' (by omega) (by omega) ((runOn_bind_of_ok run f).trans run') hk' hl'
    | nested position s'' hn' run' =>
      exact .nested position s'' (by omega) ((runOn_bind_of_ok run f).trans run')
    | chained position s'' hp' run' =>
      exact .chained position s'' (by omega) ((runOn_bind_of_ok run f).trans run')

/-- The same, with the counts of the second run and those of both given. -/
theorem andThen {p : Parser α} {f : α → Parser β} {s : ParserState} {a : α} {b : β}
    {nesting' peak' links' : Nat} {rest' : List TokenKind} (nesting₂ peak₂ : Nat)
    (hp : Accepts p s levels nesting peak a rest links)
    (hf : ∀ s', s'.kinds = rest → s'.links = links →
      Accepts (f a) s' levels nesting₂ peak₂ b rest' links')
    (hn : max nesting nesting₂ = nesting') (hk : max peak peak₂ = peak') :
    Accepts (p >>= f) s levels nesting' peak' b rest' links' := by
  subst hn hk
  exact bind hp hf

/-- A function of the answer. -/
theorem returning {p : Parser α} {s : ParserState} {a : α} (f : α → β)
    (hp : Accepts p s levels nesting peak a rest links) :
    Accepts (p >>= fun x => Pure.pure (f x)) s levels nesting peak (f a) rest links :=
  hp.andThen 0 0 (fun _ hk hl => .pure (f a) (Nat.zero_le _) hk hl) (Nat.max_zero _)
    (Nat.max_zero _)

/-- A step that takes no levels and no links. -/
theorem step {p : Parser α} {f : α → Parser β} {s s₁ : ParserState} {a : α} {b : β}
    (hp : runOn p s = (.ok a, s₁)) (hf : Accepts (f a) s₁ levels nesting peak b rest links) :
    Accepts (p >>= f) s levels nesting peak b rest links :=
  of_eq (runOn_bind_of_ok hp f) hf

/-- The same outcome with the counts written in another way. -/
theorem cast {p : Parser α} {s : ParserState} {a : α} {nesting' peak' : Nat}
    (h : Accepts p s levels nesting peak a rest links) (hn : nesting = nesting')
    (hp : peak = peak') : Accepts p s levels nesting' peak' a rest links := by
  subst hn hp
  exact h

/-- More links at once, if they are within the limit. -/
theorem raise {p : Parser α} {s : ParserState} {a : α} {peak' : Nat} (hpeak : peak' ≤ maxChain)
    (h : Accepts p s levels nesting peak a rest links) :
    Accepts p s levels nesting (max peak' peak) a rest links := by
  cases h with
  | answer s' hn hp run hk hl => exact .answer s' hn (by omega) run hk hl
  | nested position s' hn run => exact .nested position s' hn run
  | chained position s' hp run => exact .chained position s' (by omega) run

/-- Two runs, with the links set back behind them to what they were. -/
theorem restoring {first : Parser α} {loop : α → Parser β} {s : ParserState} {b : β}
    (h : Accepts (first >>= loop) s levels nesting peak b rest links)
    (hfirst : ∀ ⦃x s'⦄, runOn first s = (.ok x, s') → s'.links = s.links) :
    Accepts (do
      let x ← first
      let links := (← get).links
      let result ← loop x
      modify fun s => { s with links := links }
      return result) s levels nesting peak b rest s.links := by
  rcases hrun : runOn first s with ⟨e | x, s₁⟩
  · have herror : runOn (first >>= loop) s = (.error e, s₁) := runOn_bind_of_error hrun loop
    cases h with
    | answer s' hn hp run hk hl => exact absurd (herror.symm.trans run) (by simp)
    | nested position s' hn run =>
      exact .nested position s' hn ((runOn_bind_of_error hrun _).trans (herror.symm.trans run))
    | chained position s' hp run =>
      exact .chained position s' hp ((runOn_bind_of_error hrun _).trans (herror.symm.trans run))
  · -- Setting the links back is no part of the loop, and cannot fail.
    have hloop : Accepts (loop x) s₁ levels nesting peak b rest links :=
      of_eq (runOn_bind_of_ok hrun loop).symm h
    refine step hrun (step (runOn_get s₁) ?_)
    rw [hfirst hrun]
    refine cast (bind hloop fun s' hk hl => ?_) (Nat.max_zero nesting) (Nat.max_zero peak)
    exact step (runOn_withLinks s.links s') (pure b (Nat.zero_le _) hk rfl)

/-- A link, which is an error if there are as many as there can be. -/
theorem link {f : Unit → Parser β} {s : ParserState} {b : β} (hpeak : s.links < peak)
    (h : s.links < maxChain → Accepts (f ()) s.linked levels nesting peak b rest links) :
    Accepts (Parser.link >>= f) s levels nesting peak b rest links := by
  by_cases hlt : s.links < maxChain
  · exact step (runOn_link_eq_ok.2 ⟨hlt, rfl⟩) (h hlt)
  · -- There is no link left, and the peak says so too.
    have hfull : runOn Parser.link s = (.error ⟨.tooDeep maxChain, s.stream.peek.position⟩, s) := by
      rw [runOn_link, if_pos (Nat.not_lt.1 hlt)]
    exact .chained _ s (by omega) (runOn_bind_of_error hfull f)

/-- One more level, and all that was counted is one level further down. -/
theorem deeper {p : Parser α} {s : ParserState} {a : α}
    (h : Accepts p s levels nesting peak a rest links) :
    Accepts p s (levels + 1) (nesting + 1) peak a rest links := by
  cases h with
  | answer s' hn hp run hk hl => exact .answer s' (by omega) hp run hk hl
  | nested position s' hn run => exact .nested position s' (by omega) run
  | chained position s' hp run => exact .chained position s' hp run

end Accepts

end Parser

end PathQuery
