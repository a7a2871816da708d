/-
Paths of parsed expressions.

* **`Derivation.pathsLe_links`** — links that a path leaves for right operands and arguments add up
  to what the parser counts, and so do all links if the derivation is `IsCounted`;
* **`Derivation.pathsLe_isLink`** — all links of a path are in chains, seven on each level;
* **`Derivation.towers`** — a family of derivations in which all chains are full;
* **`Parser.pathsLe_of_parse`** — what the two limits of the parser come to on a path;
* **`Parser.exists_path_of_sumOfProduct`** — the limit of a chain is none of all paths.

Design notes: a chain hands its number of links on to what stands to the right of them, and forgets
it at its end; so nothing is counted on the way to a left operand but the chain at hand.
-/
import PathQuery.Proofs.Expr.Derivation
import PathQuery.Proofs.Expr.Paths
import PathQuery.Proofs.Parser.Query

namespace PathQuery

open PathQuery.Expr

/-! ### Links that are counted -/

mutual

/-- Whether all links on a path are counted together: to the left of a link there are no others but
those of its own chain. -/
def Derivation.IsCounted : {n : Nonterminal} → Derivation n → Prop
  | _, .condition c => c.IsCounted
  | _, .elvis c o => c.IsCounted ∧ o.IsCounted
  | _, .ternary c t o => c.IsCounted ∧ t.IsCounted ∧ o.IsCounted
  | _, .operand _ x => x.IsCounted
  | _, .operation _ _ _ l r => l.links = l.rounds ∧ l.IsCounted ∧ r.IsCounted
  | _, .path p => p.IsCounted
  | _, .minus x => x.IsCounted
  | _, .primary p => p.IsCounted
  | _, .step o _ _ => o.links = o.rounds ∧ o.IsCounted
  | _, .stepCall o _ _ args => o.links = o.rounds ∧ o.IsCounted ∧ args.IsCounted
  | _, .literal _ => True
  | _, .name _ => True
  | _, .call _ args => args.IsCounted
  | _, .group e => e.IsCounted
  | _, .list es => es.IsCounted
  | _, .closure _ _ _ body => body.IsCounted

def Items.IsCounted : Items → Prop
  | .none => True
  | .last e => e.IsCounted
  | .more e rest => e.IsCounted ∧ rest.IsCounted

end

section

variable {p : Branch → Bool}

/-- What is counted on the way to a left operand or to an object: nothing, or only the chain that it
belongs to. -/
theorem Derivation.links_left_le {n : Nonterminal} {l : Derivation n} {b : Branch}
    (h : p b = false ∨ l.links = l.rounds) :
    l.links + (p b).toNat ≤ max l.links (l.rounds + 1) := by
  obtain h | h := h
  · rw [h]
    exact Nat.le_max_left _ _
  · have hone := Bool.toNat_le (p b)
    omega

mutual

/-- Links that are left for right operands and arguments add up, and so does what is nested.  Those
that are left for left operands and objects do not, unless all links are counted. -/
theorem Derivation.pathsLe_links (hlink : ∀ b, b.isLink = false → p b = false) :
    {n : Nonterminal} → (t : Derivation n) → (∀ e, p ⟨e, 0⟩ = false) ∨ t.IsCounted →
      t.tree.PathsLe p (t.links + t.nesting)
  | _, .condition c, h => c.pathsLe_links hlink h
  | _, .elvis c o, h => by
    have hc := c.pathsLe_links hlink (h.imp_right And.left)
    have ho := o.pathsLe_links hlink (h.imp_right And.right)
    refine pathsLe_of_forall_not (fun _ => hlink _ rfl) (List.forall_mem_cons.2 ⟨hc.mono ?_,
      List.forall_mem_singleton.2 (ho.mono ?_)⟩) <;>
    · rw [Derivation.links, Derivation.nesting]
      omega
  | _, .ternary c t o, h => by
    have hc := c.pathsLe_links hlink (h.imp_right And.left)
    have ht := t.pathsLe_links hlink (h.imp_right fun h => h.2.1)
    have ho := o.pathsLe_links hlink (h.imp_right fun h => h.2.2)
    refine pathsLe_of_forall_not (fun _ => hlink _ rfl) (List.forall_mem_cons.2 ⟨hc.mono ?_,
      List.forall_mem_cons.2 ⟨ht.mono ?_, List.forall_mem_singleton.2 (ho.mono ?_)⟩⟩) <;>
    · rw [Derivation.links, Derivation.nesting]
      omega
  | _, .operand _ x, h => x.pathsLe_links hlink h
  | _, .operation level op hop l r, h => by
    have hl := l.pathsLe_links hlink (h.imp_right fun h => h.2.1)
    have hr := r.pathsLe_links hlink (h.imp_right fun h => h.2.2)
    have hleft := l.links_left_le (h.imp (· (Derivation.operation level op hop l r).tree) And.left)
    refine pathsLe_of_children_eq_cons (children_join op _ _) hl ?_
      (List.forall_mem_singleton.2 hr) ?_ <;>
    · rw [Derivation.links, Derivation.nesting]
      omega
  | _, .path p, h => p.pathsLe_links hlink h
  | _, .minus x, h => pathsLe_negated (x.pathsLe_links hlink h) (Nat.le_refl _)
  | _, .primary p, h => p.pathsLe_links hlink h
  | _, .step o s name, h => by
    have ho := o.pathsLe_links hlink (h.imp_right And.right)
    have hleft := o.links_left_le (h.imp (· (Derivation.step o s name).tree) And.left)
    refine pathsLe_of_children_eq_cons rfl ho ?_ (List.forall_mem_nil _) (m := 0) ?_ <;>
    · rw [Derivation.links, Derivation.nesting]
      omega
  | _, .stepCall o s name args, h => by
    have ho := o.pathsLe_links hlink (h.imp_right fun h => h.2.1)
    have hargs := args.pathsLe_links hlink (h.imp_right fun h => h.2.2)
    have hleft := o.links_left_le (h.imp (· (Derivation.stepCall o s name args).tree) And.left)
    refine pathsLe_of_children_eq_cons rfl ho ?_ hargs ?_ <;>
    · rw [Derivation.links, Derivation.nesting]
      omega
  | _, .literal v, _ => pathsLe_leaf rfl _
  | _, .name name, _ => pathsLe_leaf rfl _
  | _, .call name args, h =>
    pathsLe_of_forall_not (fun _ => hlink _ rfl) (args.pathsLe_links hlink h)
  | _, .group e, h => (e.pathsLe_links hlink h).mono (Nat.le_succ _)
  | _, .list es, h => pathsLe_of_forall_not (fun _ => hlink _ rfl) (es.pathsLe_links hlink h)
  | _, .closure _ params _ body, h => by
    have hbody := body.pathsLe_links hlink h
    exact pathsLe_of_forall_not (fun _ => hlink _ rfl)
      (List.forall_mem_singleton.2 (hbody.mono (Nat.le_succ _)))

theorem Items.pathsLe_links (hlink : ∀ b, b.isLink = false → p b = false) :
    (es : Items) → (∀ e, p ⟨e, 0⟩ = false) ∨ es.IsCounted →
      ∀ e ∈ es.trees, e.PathsLe p (es.links + es.nesting)
  | .none, _ => fun e he => absurd he List.not_mem_nil
  | .last e, h => by
    have he := e.pathsLe_links hlink h
    exact List.forall_mem_singleton.2 (he.mono (Nat.le_succ _))
  | .more e rest, h => by
    have he := e.pathsLe_links hlink (h.imp_right And.left)
    have hrest := rest.pathsLe_links hlink (h.imp_right And.right)
    refine List.forall_mem_cons.2 ⟨he.mono ?_, fun x hx => (hrest x hx).mono ?_⟩ <;>
    · rw [Items.links, Items.nesting]
      omega

end

end

theorem Derivation.pathsLe_isRightLink {n : Nonterminal} (t : Derivation n) :
    t.tree.PathsLe Branch.isRightLink (t.links + t.nesting) :=
  t.pathsLe_links (fun b hb => by rw [Branch.isRightLink, hb, Bool.false_and])
    (.inl fun e => Bool.and_false _)

theorem Derivation.pathsLe_isLink_of_isCounted {n : Nonterminal} {t : Derivation n}
    (h : t.IsCounted) : t.tree.PathsLe Branch.isLink (t.links + t.nesting) :=
  t.pathsLe_links (fun _ => id) (.inr h)

/-! ### All links -/

/-- How many chains there may be on a path of a derivation before it nests, besides the chain at
the top. -/
def Nonterminal.chains : Nonterminal → Nat
  | .expression => 7
  | .binary .coalesce => 6
  | .binary .disjunction => 5
  | .binary .conjunction => 4
  | .binary .comparison => 3
  | .binary .additive => 2
  | .binary .multiplicative => 1
  | .unary => 1
  | .path => 0
  | .primary => 0

variable {L : Nat}

/-- The chain at the top is among the links. -/
theorem Derivation.rounds_le_links : {n : Nonterminal} → (t : Derivation n) → t.rounds ≤ t.links
  | _, .condition _ | _, .elvis _ _ | _, .ternary _ _ _ | _, .operand _ _ | _, .path _
  | _, .minus _ | _, .primary _ | _, .literal _ | _, .name _ | _, .call _ _ | _, .group _
  | _, .list _ | _, .closure _ _ _ _ => Nat.zero_le _
  | _, .operation _ _ _ l r => by rw [rounds, links]; omega
  | _, .step o _ _ => by rw [rounds, links]; omega
  | _, .stepCall o _ _ args => by rw [rounds, links]; omega

theorem Derivation.rounds_expression (t : Derivation .expression) : t.rounds = 0 := by
  cases t <;> rfl

theorem Derivation.rounds_unary (t : Derivation .unary) : t.rounds = 0 := by cases t <;> rfl

theorem Derivation.rounds_primary (t : Derivation .primary) : t.rounds = 0 := by cases t <;> rfl

/-- An operand has one chain less than its level, or none at the top. -/
theorem Derivation.rounds_operand_le {level : Level} (x : Derivation level.operand)
    (h : x.links ≤ L) :
    x.rounds + level.operand.chains * L ≤ (Nonterminal.binary level).chains * L := by
  have hrounds := Nat.le_trans x.rounds_le_links h
  cases level with
  | multiplicative =>
    have hzero : x.rounds = 0 := Derivation.rounds_unary x
    rw [hzero, Nat.zero_add]
    exact Nat.le_refl _
  | _ =>
    simp only [Level.operand, Nonterminal.chains] at hrounds ⊢
    omega

/-- What nests takes a level, and may have all chains again. -/
theorem Derivation.pathsLe_isLink_nested {t : Derivation .expression} {d : Nat}
    (ht : ∀ {d}, t.nesting ≤ d →
      t.tree.PathsLe Branch.isLink (t.rounds + 7 * L + d * (7 * L)))
    (hd : t.nesting + 1 ≤ d) : t.tree.PathsLe Branch.isLink (d * (7 * L)) := by
  obtain ⟨d, rfl⟩ : ∃ m, d = m + 1 := Nat.exists_eq_add_one.2 (by omega)
  refine (ht (Nat.le_of_succ_le_succ hd)).mono ?_
  rw [t.rounds_expression, Nat.succ_mul d]
  omega

mutual

/-- No path has more links than its chains have together, each as long as it can get. -/
theorem Derivation.pathsLe_isLink (hL : 0 < L) :
    {n : Nonterminal} → (t : Derivation n) → {d : Nat} → t.links ≤ L → t.nesting ≤ d →
      t.tree.PathsLe Branch.isLink (t.rounds + n.chains * L + d * (7 * L))
  | _, .condition c, d, hl, hd => by
    have hc := c.pathsLe_isLink hL hl hd
    have hrounds := Nat.le_trans c.rounds_le_links hl
    refine hc.mono ?_
    simp only [Nonterminal.chains, Derivation.rounds]
    omega
  | _, .elvis c o, d, hl, hd => by
    rw [Derivation.links, Nat.max_le] at hl
    rw [Derivation.nesting, Nat.max_le] at hd
    have hc := c.pathsLe_isLink hL hl.1 hd.1
    have ho := o.pathsLe_isLink_nested (o.pathsLe_isLink hL hl.2) hd.2
    have hrounds := Nat.le_trans c.rounds_le_links hl.1
    refine pathsLe_of_forall_not (fun _ => rfl) (List.forall_mem_cons.2 ⟨hc.mono ?_,
      List.forall_mem_singleton.2 (ho.mono ?_)⟩) <;>
    · simp only [Nonterminal.chains, Derivation.rounds]
      omega
  | _, .ternary c t o, d, hl, hd => by
    rw [Derivation.links, Nat.max_le, Nat.max_le] at hl
    rw [Derivation.nesting, Nat.max_le, Nat.max_le] at hd
    have hc := c.pathsLe_isLink hL hl.1 hd.1
    have ht := t.pathsLe_isLink_nested (t.pathsLe_isLink hL hl.2.1) hd.2.1
    have ho := o.pathsLe_isLink_nested (o.pathsLe_isLink hL hl.2.2) hd.2.2
    have hrounds := Nat.le_trans c.rounds_le_links hl.1
    refine pathsLe_of_forall_not (fun _ => rfl) (List.forall_mem_cons.2 ⟨hc.mono ?_,
      List.forall_mem_cons.2 ⟨ht.mono ?_, List.forall_mem_singleton.2 (ho.mono ?_)⟩⟩) <;>
    · simp only [Nonterminal.chains, Derivation.rounds]
      omega
  | _, .operand level x, d, hl, hd => by
    have hx := x.pathsLe_isLink hL hl hd
    have hrounds := x.rounds_operand_le hl
    refine hx.mono ?_
    change _ ≤ 0 + _ + _
    omega
  | _, .operation level op _ l r, d, hl, hd => by
    rw [Derivation.links] at hl
    rw [Derivation.nesting, Nat.max_le] at hd
    have hleft := l.pathsLe_isLink hL (by omega) hd.1
    have hright := r.pathsLe_isLink hL (by omega) hd.2
    have hrounds := r.rounds_operand_le (L := L) (by omega)
    have hchildren : ∀ e ∈ (op.join l.tree r.tree).children, e.PathsLe Branch.isLink
        (l.rounds + (Nonterminal.binary level).chains * L + d * (7 * L)) := by
      rw [children_join]
      exact List.forall_mem_cons.2 ⟨hleft, List.forall_mem_singleton.2 (hright.mono (by omega))⟩
    refine pathsLe_of_lt hchildren ?_
    rw [Derivation.rounds]
    omega
  | _, .path p, d, hl, hd => by
    have hp := p.pathsLe_isLink hL hl hd
    have hrounds := Nat.le_trans p.rounds_le_links hl
    refine hp.mono ?_
    simp only [Nonterminal.chains, Derivation.rounds]
    omega
  | _, .minus x, d, hl, hd => by
    obtain ⟨d, rfl⟩ : ∃ m, d = m + 1 := Nat.exists_eq_add_one.2 (Nat.zero_lt_of_lt hd)
    have hx := x.pathsLe_isLink hL hl (Nat.le_of_succ_le_succ hd)
    rw [x.rounds_unary] at hx
    refine pathsLe_negated hx ?_
    simp only [Nonterminal.chains, Derivation.rounds, Nat.succ_mul d]
    omega
  | _, .primary p, d, hl, hd => by
    have hp := p.pathsLe_isLink hL hl hd
    rw [p.rounds_primary] at hp
    exact hp
  | _, .step o s name, d, hl, hd => by
    have ho := o.pathsLe_isLink hL (Nat.le_trans (Nat.le_max_left _ _) hl) hd
    refine pathsLe_of_lt (List.forall_mem_singleton.2 ho) ?_
    rw [Derivation.rounds]
    omega
  | _, .stepCall o s name args, d, hl, hd => by
    rw [Derivation.links] at hl
    rw [Derivation.nesting, Nat.max_le] at hd
    have ho := o.pathsLe_isLink hL (by omega) hd.1
    have hargs := args.pathsLe_isLink hL (by omega) hd.2
    refine pathsLe_of_lt (List.forall_mem_cons.2 ⟨ho, fun e he => (hargs e he).mono ?_⟩) ?_
    · omega
    · rw [Derivation.rounds]
      omega
  | _, .literal v, _, _, _ => pathsLe_leaf rfl _
  | _, .name name, _, _, _ => pathsLe_leaf rfl _
  | _, .call name args, d, hl, hd => by
    have hargs := args.pathsLe_isLink hL hl hd
    exact pathsLe_of_forall_not (fun _ => rfl) fun e he => (hargs e he).mono (Nat.le_add_left _ _)
  | _, .group e, d, hl, hd => by
    have he := e.pathsLe_isLink_nested (e.pathsLe_isLink hL hl) hd
    exact he.mono (Nat.le_add_left _ _)
  | _, .list es, d, hl, hd => by
    have hes := es.pathsLe_isLink hL hl hd
    exact pathsLe_of_forall_not (fun _ => rfl) fun e he => (hes e he).mono (Nat.le_add_left _ _)
  | _, .closure _ params _ body, d, hl, hd => by
    have hbody := body.pathsLe_isLink_nested (body.pathsLe_isLink hL hl) hd
    exact pathsLe_of_forall_not (fun _ => rfl)
      (List.forall_mem_singleton.2 (hbody.mono (Nat.le_add_left _ _)))

theorem Items.pathsLe_isLink (hL : 0 < L) :
    (es : Items) → {d : Nat} → es.links ≤ L → es.nesting ≤ d →
      ∀ e ∈ es.trees, e.PathsLe Branch.isLink (d * (7 * L))
  | .none, _, _, _ => fun e he => absurd he List.not_mem_nil
  | .last e, d, hl, hd =>
    List.forall_mem_singleton.2 (e.pathsLe_isLink_nested (e.pathsLe_isLink hL hl) hd)
  | .more e rest, d, hl, hd => by
    rw [Items.links, Nat.max_le] at hl
    rw [Items.nesting, Nat.max_le] at hd
    exact List.forall_mem_cons.2 ⟨e.pathsLe_isLink_nested (e.pathsLe_isLink hL hl.1) hd.1,
      rest.pathsLe_isLink hL hl.2 hd.2⟩

end

/-- The text is a query with this derivation, in which closures reach as far as they can. -/
structure Derivation.Derives (t : Derivation .expression) (text : String) : Prop where
  isGreedy : t.IsGreedy
  tokens : ∃ stream, tokenize text = .ok stream ∧ t.tokens = stream.kinds

namespace Parser

variable {text : String} {e : Expr}

theorem exists_derives_of_parse (h : Expr.parse text = .ok e) :
    ∃ t : Derivation .expression, t.Derives text := by
  obtain ⟨stream, hstream⟩ := exists_tokenize_of_parse h
  obtain ⟨t, hgreedy, -, htokens⟩ := exists_greedy_of_parse hstream h
  exact ⟨t, hgreedy, stream, hstream, htokens⟩

/-- The derivation of a query that is accepted keeps the limits. -/
theorem withinLimits_of_parse (h : Expr.parse text = .ok e) {t : Derivation .expression}
    (ht : t.Derives text) : t.tree = e ∧ t.WithinLimits := by
  obtain ⟨hgreedy, stream, hstream, htokens⟩ := ht
  exact tree_eq_of_greedy hstream h hgreedy htokens

theorem pathsLe_isLink_of_parse (h : Expr.parse text = .ok e) :
    e.PathsLe Branch.isLink (7 * maxChain * maxNesting) := by
  obtain ⟨t, ht⟩ := exists_derives_of_parse h
  obtain ⟨rfl, hnesting, hlinks⟩ := withinLimits_of_parse h ht
  rw [Nat.mul_comm]
  exact t.pathsLe_isLink_nested (t.pathsLe_isLink (by decide) hlinks) hnesting

end Parser

/-! ### Paths of full length -/

/-- Symbols and names. -/
def TokenKind.IsPlainWord : TokenKind → Prop
  | .symbol _ => True
  | .identifier name => IsName name
  | _ => False

theorem Lexes.spaced {afterDot : Bool} {rest : List Char} {kinds : List TokenKind} (symbol : Symbol)
    (hr : Lexes (TokenKind.symbol symbol).isDot rest kinds) :
    Lexes afterDot (symbol.spelling.toList ++ ' ' :: rest) (.symbol symbol :: kinds) := by
  cases symbol <;> exact .symbol rfl hr.space

/-- Symbols and names in any order are the tokens of a text. -/
theorem exists_lexes {kinds : List TokenKind} (h : ∀ kind ∈ kinds, kind.IsPlainWord) :
    ∀ afterDot, ∃ text, Lexes afterDot text kinds := by
  induction kinds with
  | nil => exact fun afterDot => ⟨[], .nil afterDot⟩
  | cons kind kinds ih =>
    intro afterDot
    obtain ⟨hkind, hkinds⟩ := List.forall_mem_cons.1 h
    obtain ⟨rest, hrest⟩ := ih hkinds kind.isDot
    cases kind with
    | symbol symbol => exact ⟨_, hrest.spaced symbol⟩
    | identifier name =>
      exact ⟨_, .cons (Scans.name hkind (.cons (by decide) rest)) hrest.space⟩
    | _ => exact hkind.elim

namespace Derivation

/-- As many links as possible in each chain, and `k` of them on the leftmost path; `d` levels are
nested. -/
structure Stretched {n : Nonterminal} (t : Derivation n) (d k : Nat) : Prop where
  isGreedy : t.IsGreedy
  isOpen : t.isOpen = false
  tokens : ∀ kind ∈ t.tokens, kind.IsPlainWord
  nesting : t.nesting ≤ d
  links : t.links ≤ maxChain
  leftLinks : t.tree.leftLinks = k

/-- A name as an operand. -/
def nameAs (level : Level) : Derivation level.operand := asOperand (ofPrimary (.name "a")) level

/-- A chain of operations on a name. -/
def chained {level : Level} (op : BinaryOp) (hop : op.level = level)
    (t : Derivation level.operand) : Nat → Derivation (.binary level)
  | 0 => .operand level t
  | n + 1 => .operation level op hop (chained op hop t n) (nameAs level)

/-- A chain of member steps. -/
def stepped (t : Derivation .primary) : Nat → Derivation .path
  | 0 => .primary t
  | n + 1 => .step (stepped t n) false (.identifier "a")

variable {level : Level} {d k n : Nat}

theorem rounds_chained (op : BinaryOp) (hop : op.level = level) (t : Derivation level.operand)
    (n : Nat) : (chained op hop t n).rounds = n := by
  induction n with
  | zero => rfl
  | succ n ih => exact congrArg (· + 1) ih

theorem rounds_stepped (t : Derivation .primary) (n : Nat) : (stepped t n).rounds = n := by
  induction n with
  | zero => rfl
  | succ n ih => exact congrArg (· + 1) ih

theorem leftLinks_join (op : BinaryOp) (l r : Expr) :
    (op.join l r).leftLinks = l.leftLinks + 1 := by cases op <;> rfl

theorem isPlainWord_a : (TokenKind.identifier "a").IsPlainWord := isName_iff.1 (by decide)

theorem stretched_name : (Derivation.name "a").Stretched 0 0 where
  isGreedy := trivial
  isOpen := rfl
  tokens := List.forall_mem_singleton.2 isPlainWord_a
  nesting := Nat.le_refl 0
  links := Nat.zero_le _
  leftLinks := rfl

theorem Stretched.group {e : Derivation .expression} (h : e.Stretched d k) :
    (Derivation.group e).Stretched (d + 1) k where
  isGreedy := h.isGreedy
  isOpen := rfl
  tokens := List.forall_mem_cons.2 ⟨trivial,
    List.forall_mem_append.2 ⟨h.tokens, List.forall_mem_singleton.2 trivial⟩⟩
  nesting := Nat.succ_le_succ h.nesting
  links := h.links
  leftLinks := h.leftLinks

theorem Stretched.chained (op : BinaryOp) (hop : op.level = level) {t : Derivation level.operand}
    (h : t.Stretched d k) (hn : n ≤ maxChain) :
    (Derivation.chained op hop t n).Stretched d (k + n) := by
  induction n with
  | zero => exact ⟨h.isGreedy, h.isOpen, h.tokens, h.nesting, h.links, h.leftLinks⟩
  | succ n ih =>
    have hleft := ih (Nat.le_of_succ_le hn)
    have hrounds := rounds_chained op hop t n
    have hnesting : (nameAs level).nesting = 0 := by cases level <;> rfl
    have hlinks : (nameAs level).links = 0 := by cases level <;> rfl
    refine ⟨⟨hleft.isOpen, hleft.isGreedy, ?_⟩, ?_, ?_, ?_, ?_, ?_⟩
    · exact (isGreedy_asOperand _ _).2 trivial
    · exact isOpen_asOperand _ _
    · refine List.forall_mem_append.2 ⟨hleft.tokens, List.forall_mem_cons.2 ⟨trivial, ?_⟩⟩
      rw [nameAs, tokens_asOperand]
      exact List.forall_mem_singleton.2 isPlainWord_a
    · rw [Derivation.chained, Derivation.nesting, hnesting]
      exact Nat.max_le.2 ⟨hleft.nesting, Nat.zero_le d⟩
    · rw [Derivation.chained, Derivation.links, hlinks, hrounds]
      exact Nat.max_le.2 ⟨hleft.links, hn⟩
    · rw [Derivation.chained, Derivation.tree, leftLinks_join, hleft.leftLinks, Nat.add_assoc]

theorem Stretched.stepped {t : Derivation .primary} (h : t.Stretched d k) (hn : n ≤ maxChain) :
    (Derivation.stepped t n).Stretched d (k + n) := by
  induction n with
  | zero => exact ⟨h.isGreedy, h.isOpen, h.tokens, h.nesting, h.links, h.leftLinks⟩
  | succ n ih =>
    have hobject := ih (Nat.le_of_succ_le hn)
    have hrounds := rounds_stepped t n
    refine ⟨⟨hobject.isOpen, hobject.isGreedy⟩, rfl, ?_, hobject.nesting, ?_, ?_⟩
    · exact List.forall_mem_append.2 ⟨hobject.tokens,
        List.forall_mem_cons.2 ⟨trivial, List.forall_mem_singleton.2 isPlainWord_a⟩⟩
    · rw [Derivation.stepped, Derivation.links, hrounds]
      exact Nat.max_le.2 ⟨hobject.links, hn⟩
    · rw [Derivation.stepped, Derivation.tree, Expr.leftLinks, hobject.leftLinks, Nat.add_assoc]

/-- All chains on top of each other, with `n` links each. -/
def tower (n : Nat) (t : Derivation .primary) : Derivation .expression :=
  .condition <| chained .coalesce rfl (chained (.logical .or) rfl (chained (.logical .and) rfl
    (chained (.comparison .equal) rfl (chained (.arithmetic .add) rfl
      (chained (.arithmetic .multiply) rfl (.path (stepped t n)) n) n) n) n) n) n

/-- Towers in parentheses, one around the other. -/
def towers (n : Nat) : Nat → Derivation .expression
  | 0 => tower n (.name "a")
  | d + 1 => tower n (.group (towers n d))

theorem Stretched.tower {t : Derivation .primary} (h : t.Stretched d k) (hn : n ≤ maxChain) :
    (Derivation.tower n t).Stretched d (k + 7 * n) := by
  have hpath : (Derivation.path (Derivation.stepped t n)).Stretched d (k + n) :=
    have h := h.stepped hn
    ⟨h.isGreedy, h.isOpen, h.tokens, h.nesting, h.links, h.leftLinks⟩
  have h := (((((hpath.chained (.arithmetic .multiply) rfl hn).chained
    (.arithmetic .add) rfl hn).chained (.comparison .equal) rfl hn).chained
    (.logical .and) rfl hn).chained (.logical .or) rfl hn).chained .coalesce rfl hn
  have hlinks : k + 7 * n = k + n + n + n + n + n + n + n := by omega
  exact ⟨h.isGreedy, h.isOpen, h.tokens, h.nesting, h.links, hlinks ▸ h.leftLinks⟩

theorem stretched_towers (hn : n ≤ maxChain) (d : Nat) :
    (towers n d).Stretched d ((d + 1) * (7 * n)) := by
  induction d with
  | zero => exact (Nat.one_mul (7 * n)).symm ▸ Nat.zero_add (7 * n) ▸ stretched_name.tower hn
  | succ d ih =>
    rw [Nat.succ_mul]
    exact ih.group.tower hn

end Derivation

namespace Parser

theorem exists_parse_of_stretched {t : Derivation .expression} {d k : Nat} (h : t.Stretched d k)
    (hd : d + 1 ≤ maxNesting) : ∃ text, Expr.parse text = .ok t.tree := by
  obtain ⟨cs, hcs⟩ := exists_lexes h.tokens false
  rw [← String.toList_ofList (l := cs)] at hcs
  obtain ⟨stream, hstream, hkinds⟩ := hcs.tokenize
  have hwithin : t.WithinLimits := ⟨Nat.le_trans (Nat.succ_le_succ h.nesting) hd, h.links⟩
  exact ⟨String.ofList cs, (parse_of_greedy hstream h.isGreedy hkinds.symm).eq_ok hwithin⟩

/-- Some query has seven full chains on each level, and a path through all of them. -/
theorem exists_path_of_full_chains :
    ∃ text e path, Expr.parse text = .ok e ∧ e.IsPath path ∧
      path.countP Branch.isLink = 7 * maxChain * maxNesting := by
  obtain ⟨t, ht⟩ : ∃ t : Derivation .expression,
      t.Stretched (maxNesting - 1) (maxNesting * (7 * maxChain)) :=
    ⟨_, Derivation.stretched_towers (Nat.le_refl maxChain) (maxNesting - 1)⟩
  obtain ⟨text, htext⟩ := exists_parse_of_stretched ht (Nat.le_refl maxNesting)
  obtain ⟨path, hpath, hle⟩ := exists_leftLinks_le t.tree
  rw [ht.leftLinks, Nat.mul_comm] at hle
  exact ⟨text, t.tree, path, htext, hpath,
    Nat.le_antisymm (pathsLe_isLink_of_parse htext path hpath) hle⟩

/-- What the limits of the parser come to on a path of an expression that it accepts.  The limit of
a chain is one of all paths, up to minus signs, if to the left of links there are no others but
those of their own chain; and otherwise of the links that are left for right operands and arguments.
All together, links are limited by seven full chains on each level only, and that is reached. -/
theorem pathsLe_of_parse {text : String} {e : Expr} (h : Expr.parse text = .ok e) :
    (∃ t : Derivation .expression, t.Derives text) ∧
      (∀ t : Derivation .expression, t.Derives text → t.IsCounted →
        e.PathsLe Branch.isLink (maxChain + maxNesting)) ∧
      e.PathsLe Branch.isRightLink (maxChain + maxNesting) ∧
      e.PathsLe Branch.isLink (7 * maxChain * maxNesting) ∧
      ∃ text' e' path, Expr.parse text' = .ok e' ∧ e'.IsPath path ∧
        path.countP Branch.isLink = 7 * maxChain * maxNesting := by
  have hexists := exists_derives_of_parse h
  refine ⟨hexists, ?_, ?_, pathsLe_isLink_of_parse h, exists_path_of_full_chains⟩
  · intro t ht hcounted
    obtain ⟨rfl, hnesting, hlinks⟩ := withinLimits_of_parse h ht
    exact (Derivation.pathsLe_isLink_of_isCounted hcounted).mono (by omega)
  · obtain ⟨t, ht⟩ := hexists
    obtain ⟨rfl, hnesting, hlinks⟩ := withinLimits_of_parse h ht
    exact t.pathsLe_isRightLink.mono (by omega)

/-- A name and a product of names behind it, as a sum. -/
def sumWithProduct : Derivation .expression :=
  .asExpression .additive (.operation .additive (.arithmetic .add) rfl
    (.operand .additive (.nameAs .additive))
    (.operation .multiplicative (.arithmetic .multiply) rfl
      (.operand .multiplicative (.nameAs .multiplicative)) (.nameAs .multiplicative)))

theorem pathsLe_sumWithProduct :
    Expr.parse "a + a * a" = .ok sumWithProduct.tree ∧ sumWithProduct.Derives "a + a * a" ∧
      sumWithProduct.IsCounted ∧
      sumWithProduct.tree.PathsLe Branch.isLink (maxChain + maxNesting) := by
  have h : Expr.parse "a + a * a" = .ok sumWithProduct.tree := rfl
  have hderives : sumWithProduct.Derives "a + a * a" :=
    ⟨⟨rfl, trivial, rfl, trivial, trivial⟩, _, rfl, rfl⟩
  have hcounted : sumWithProduct.IsCounted := ⟨rfl, trivial, rfl, trivial, trivial⟩
  exact ⟨h, hderives, hcounted, (pathsLe_of_parse h).2.1 _ hderives hcounted⟩

theorem parse_ofList (cs : List Char) : Expr.parse (String.ofList cs) =
    match Lexer.stream ⟨⟨cs, .start⟩, false⟩ (cs.length + 1) with
    | .ok stream => (query.runOn ⟨stream, 0⟩).1
    | .error e => .error e.toParseError := by
  rw [Expr.parse, start, tokenize_ofList]
  cases Lexer.stream ⟨⟨cs, .start⟩, false⟩ (cs.length + 1) <;> rfl

/-- A sum whose first term is a product, with fewer operators of either kind than a chain may
have. -/
def sumOfProduct : List Char :=
  '1' :: ((List.replicate 161 ['*', '1']).flatten ++ (List.replicate 160 ['+', '1']).flatten)

/-- The two chains are limited one by one, so the path through both is longer than a chain and all
levels together. -/
theorem exists_path_of_sumOfProduct :
    ∃ e path, Expr.parse (.ofList sumOfProduct) = .ok e ∧ e.IsPath path ∧
      maxChain + maxNesting < path.countP Branch.isLink := by
  have hparse : (Expr.parse (.ofList sumOfProduct)).toOption.any
      (fun e => decide (maxChain + maxNesting < e.leftLinks)) = true := by
    rw [parse_ofList]
    decide +kernel
  obtain ⟨e, he, hlinks⟩ := exists_parse_of_any _ _ hparse
  obtain ⟨path, hpath, hle⟩ := exists_leftLinks_le e
  exact ⟨e, path, he, hpath, Nat.lt_of_lt_of_le (of_decide_eq_true hlinks) hle⟩

end Parser

end PathQuery
