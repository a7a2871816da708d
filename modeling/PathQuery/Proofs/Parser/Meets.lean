/-
Runs of the parser with a condition on both outcomes.

* **`Parser.Meets`** — a run from a state gives an answer that satisfies one condition, or an error
  that satisfies another one;
* **`Parser.Meets.bind`** — what is behind the first of two parsers is a condition on its answer;
* **`Parser.Meets.link`, `Parser.Meets.expect`, ...** — the primitives;
* **`Parser.Meets.restoring`** — a chain, whose condition does not depend on the links.

Design notes: the condition on errors is the same all along a run, as that on answers is not.
-/
import PathQuery.Proofs.Parser.Runs

namespace PathQuery

namespace Parser

variable {α β : Type} {E : ParseError → Prop} {s s' : ParserState}

/-- A run of `p` from `s` gives an answer that satisfies `Q` with the state behind it, or it fails
with an error that satisfies `E`. -/
def Meets (E : ParseError → Prop) (p : Parser α) (s : ParserState)
    (Q : α → ParserState → Prop) : Prop :=
  match runOn p s with
  | (.ok a, s') => Q a s'
  | (.error e, _) => E e

namespace Meets

variable {p : Parser α} {f : α → Parser β} {Q : α → ParserState → Prop}

theorem pure {a : α} (h : Q a s) : Meets E (Pure.pure a) s Q := h

theorem throw {e : ParseError} (h : E e) : Meets E (MonadExcept.throw e : Parser α) s Q := h

theorem of_run {a : α} (hp : runOn p s = (.ok a, s')) (h : Q a s') : Meets E p s Q := by
  rw [Meets, hp]
  exact h

theorem bind {Q : β → ParserState → Prop} (h : Meets E p s fun a s' => Meets E (f a) s' Q) :
    Meets E (p >>= f) s Q := by
  rw [Meets] at h
  rw [Meets, runOn_bind]
  rcases hrun : runOn p s with ⟨e | a, s'⟩ <;> rw [hrun] at h <;> exact h

/-- The first parser is a primitive that always has an answer. -/
theorem bind_of_ok {Q : β → ParserState → Prop} {a : α} (hp : runOn p s = (.ok a, s'))
    (h : Meets E (f a) s' Q) : Meets E (p >>= f) s Q := by
  rw [Meets, runOn_bind_of_ok hp]
  exact h

theorem mono {Q' : α → ParserState → Prop} (h : Meets E p s Q) (hQ : ∀ a s', Q a s' → Q' a s') :
    Meets E p s Q' := by
  rw [Meets] at h ⊢
  rcases hrun : runOn p s with ⟨e | a, s'⟩ <;> rw [hrun] at h
  · exact h
  · exact hQ a s' h

theorem of_error {e : ParseError} (h : Meets E p s Q) (he : (runOn p s).1 = .error e) : E e := by
  rw [Meets] at h
  rcases hrun : runOn p s with ⟨e' | a, s'⟩ <;> rw [hrun] at h he
  · obtain rfl := Except.error.inj he
    exact h
  · exact nomatch he

/-! ### Primitives -/

theorem unexpectedAt {token : Token} {expected : Expected}
    (h : ∀ fault, fault = .unexpectedEnd expected ∨ fault = .unexpectedToken expected token.kind →
      E ⟨fault, token.position⟩) :
    Meets E (Parser.unexpectedAt token expected : Parser α) s Q := by
  refine throw (h _ ?_)
  split
  · exact .inl rfl
  · exact .inr rfl

theorem link {Q : Unit → ParserState → Prop}
    (herror : E ⟨.tooDeep maxChain, s.stream.peek.position⟩) (h : Q () s.linked) :
    Meets E Parser.link s Q := by
  rw [Meets, runOn_link]
  by_cases hlinks : maxChain ≤ s.links
  · rw [if_pos hlinks]
    exact herror
  · rw [if_neg hlinks]
    exact h

/-- The links are set back behind a loop, and nothing else is changed. -/
theorem restoring {first : Parser α} {loop : α → Parser β} {Q : β → ParserState → Prop}
    (h : Meets E first s fun a s' => Meets E (loop a) s' fun b s'' =>
      ∀ links, Q b (s''.withLinks links)) :
    Meets E (do
      let x ← first
      let links := (← get).links
      let result ← loop x
      modify fun s => { s with links := links }
      return result) s Q :=
  bind (h.mono fun _ s' h' => bind_of_ok (runOn_get s') (bind (h'.mono fun _ s'' hb =>
    bind_of_ok (runOn_withLinks s'.links s'') (pure (hb s'.links)))))

end Meets

end Parser

end PathQuery
