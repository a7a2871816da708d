/-
What a run of the parser does to the count of links.

* **`Parser.Shifted`** — how a run compares with one that starts with more links: the same answer
  and as many more links behind it, or an error because the links are used up;
* **`Parser.Counts`** — a run only adds links, within the limit, and is shifted by more of them;
* **`Parser.Counts.restoring`** — so does a loop behind which the links are set back;
* **`Parser.counts_expression`** — so do expressions.

Design notes: nothing but the limit of a chain looks at the links, and no production catches an
error; so two runs with different links do the same until the limit stops one of them.
-/
import PathQuery.Proofs.Parser.Closed

namespace PathQuery

namespace ParserState

/-- The state with some more links. -/
def raised (s : ParserState) (n : Nat) : ParserState := { s with links := s.links + n }

theorem raised_withLinks_zero (s : ParserState) (n : Nat) :
    (s.withLinks 0).raised n = s.withLinks n := by
  rw [raised, withLinks, withLinks, Nat.zero_add]

theorem raised_raised (s : ParserState) (m n : Nat) : (s.raised m).raised n = s.raised (m + n) := by
  rw [raised, raised, raised, Nat.add_assoc]

end ParserState

namespace Parser

variable {α β : Type}

/-- How a run compares with one that starts with `n` more links. -/
inductive Shifted (n : Nat) :
    Except ParseError α × ParserState → Except ParseError α × ParserState → Prop where
  | same (answer : Except ParseError α) (s : ParserState) :
      Shifted n (answer, s) (answer, s.raised n)
  | full (r : Except ParseError α × ParserState) (position : Position) (s : ParserState) :
      Shifted n r (.error ⟨.tooDeep maxChain, position⟩, s)

/-- A run only adds links, within the limit, and with more links at its start does the same until
the limit stops it. -/
structure Counts (p : Parser α) : Prop where
  shifted : ∀ s n, Shifted n (runOn p s) (runOn p (s.raised n))
  le : ∀ s, s.links ≤ (runOn p s).2.links
  le_maxChain : ∀ s, s.links ≤ maxChain → (runOn p s).2.links ≤ maxChain

namespace Counts

/-! ### Steps of runs -/

/-- What does not look at the links and leaves them as they are. -/
theorem of_runOn_eq {p : Parser α} (answer : TokenStream → Except ParseError α)
    (rest : TokenStream → TokenStream)
    (h : ∀ s, runOn p s = (answer s.stream, { s with stream := rest s.stream })) : Counts p where
  shifted s n := by
    rw [h, h]
    exact .same (answer s.stream) { s with stream := rest s.stream }
  le s := by
    have hlinks : (runOn p s).2.links = s.links := by rw [h]
    exact Nat.le_of_eq hlinks.symm
  le_maxChain s hs := by
    rw [h]
    exact hs

theorem pure (a : α) : Counts (Pure.pure a) := .of_runOn_eq (fun _ => .ok a) id fun _ => rfl

theorem throw (e : ParseError) : Counts (MonadExcept.throw e : Parser α) :=
  .of_runOn_eq (fun _ => .error e) id fun _ => rfl

theorem bind {p : Parser α} {f : α → Parser β} (hp : Counts p) (hf : ∀ a, Counts (f a)) :
    Counts (p >>= f) where
  shifted s n := by
    have hfirst := hp.shifted s n
    rw [runOn_bind, runOn_bind]
    generalize runOn p s = r, runOn p (s.raised n) = r' at hfirst
    cases hfirst with
    | full r position s' => exact .full _ position s'
    | same answer s' =>
      cases answer with
      | ok a => exact (hf a).shifted s' n
      | error e => exact .same _ s'
  le s := by
    have hfirst := hp.le s
    rcases hrun : runOn p s with ⟨e | a, s'⟩ <;> rw [hrun] at hfirst
    · rw [runOn_bind_of_error hrun]
      exact hfirst
    · rw [runOn_bind_of_ok hrun]
      exact Nat.le_trans hfirst ((hf a).le s')
  le_maxChain s hs := by
    have hfirst := hp.le_maxChain s hs
    rcases hrun : runOn p s with ⟨e | a, s'⟩ <;> rw [hrun] at hfirst
    · rw [runOn_bind_of_error hrun]
      exact hfirst
    · rw [runOn_bind_of_ok hrun]
      exact (hf a).le_maxChain s' hfirst

theorem peek : Counts Parser.peek := .of_runOn_eq (fun stream => .ok stream.peek) id fun _ => rfl

theorem advance : Counts Parser.advance :=
  .of_runOn_eq (fun stream => .ok stream.peek) TokenStream.tail fun _ => rfl

/-- What looks at the tokens at hand, and not at the links. -/
theorem get_bind {f : ParserState → Parser α} (hf : ∀ s, Counts (f s))
    (h : ∀ s n, f (s.raised n) = f s) : Counts (get >>= f) where
  shifted s n := by
    rw [runOn_bind_of_ok (runOn_get s), runOn_bind_of_ok (runOn_get (s.raised n)), h]
    exact (hf s).shifted s n
  le s := by
    rw [runOn_bind_of_ok (runOn_get s)]
    exact (hf s).le s
  le_maxChain s hs := by
    rw [runOn_bind_of_ok (runOn_get s)]
    exact (hf s).le_maxChain s hs

/-- The only step that looks at the links. -/
theorem link : Counts Parser.link where
  shifted s n := by
    rw [runOn_link, runOn_link]
    by_cases hfull : maxChain ≤ s.links + n
    · rw [if_pos (show maxChain ≤ (s.raised n).links from hfull)]
      exact .full _ _ _
    · rw [if_neg (show ¬ maxChain ≤ (s.raised n).links from hfull), if_neg (by omega)]
      have hlinked : (s.raised n).linked = s.linked.raised n := by
        simp only [ParserState.linked, ParserState.raised, ParserState.mk.injEq, true_and]
        omega
      rw [hlinked]
      exact .same _ _
  le s := by
    rw [runOn_link]
    split
    · exact Nat.le_refl _
    · exact Nat.le_succ _
  le_maxChain s hs := by
    rw [runOn_link]
    split
    · exact hs
    · rename_i hlt
      exact Nat.lt_of_not_le hlt

/-- The links are put back behind a loop, unless there is an error. -/
theorem runOn_restoring (loop : Parser β) (s : ParserState) :
    runOn (do
      let links := (← (get : Parser ParserState)).links
      let result ← loop
      modify fun s => { s with links := links }
      return result) s =
      match runOn loop s with
      | (.ok b, s') => (.ok b, s'.withLinks s.links)
      | (.error e, s') => (.error e, s') := by
  rw [runOn_bind_of_ok (runOn_get s)]
  rcases hloop : runOn loop s with ⟨e | b, s'⟩
  · exact runOn_bind_of_error hloop _
  · rw [runOn_bind_of_ok hloop, runOn_bind_of_ok (runOn_withLinks s.links s')]
    rfl

/-- A loop behind which the links are what they were in front of it. -/
theorem restoring {first : Parser α} {loop : α → Parser β} (hfirst : Counts first)
    (hloop : ∀ a, Counts (loop a)) :
    Counts (do
      let x ← first
      let links := (← get).links
      let result ← loop x
      modify fun s => { s with links := links }
      return result) := by
  refine hfirst.bind fun x => ?_
  constructor
  · intro s n
    have hshifted := (hloop x).shifted s n
    rw [runOn_restoring, runOn_restoring]
    generalize runOn (loop x) s = r, runOn (loop x) (s.raised n) = r' at hshifted
    cases hshifted with
    | full r position s' => exact .full _ position s'
    | same answer s' =>
      cases answer with
      | ok b => exact .same (.ok b) (s'.withLinks s.links)
      | error e => exact .same (.error e) s'
  · intro s
    have hle := (hloop x).le s
    rw [runOn_restoring]
    generalize runOn (loop x) s = r at hle ⊢
    rcases r with ⟨e | b, s'⟩
    · exact hle
    · exact Nat.le_refl s.links
  · intro s hs
    have hle := (hloop x).le_maxChain s hs
    rw [runOn_restoring]
    generalize runOn (loop x) s = r at hle ⊢
    rcases r with ⟨e | b, s'⟩
    · exact hle
    · exact hs

end Counts

/-! ### Productions -/

theorem closed_counts : Closed (fun _ => True) Counts where
  pure := .pure
  throw _ _ _ := .throw _
  bind := .bind
  peek_bind hf := Counts.peek.bind fun token => hf token trivial
  advance_bind hf := Counts.advance.bind fun token => hf token trivial
  get_bind hf h := .get_bind hf fun s n => h s (s.links + n)
  link := .link
  restoring := .restoring

theorem counts_expression : Counts expression := closed_counts.expression

theorem counts_query : Counts query := closed_counts.query

end Parser

end PathQuery
