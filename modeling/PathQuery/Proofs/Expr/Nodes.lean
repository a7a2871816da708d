/-
What the nodes of a tree must be like to be written and read back.

* **`Expr.all`** — a condition on all nodes of a tree;
* **`Expr.isWritable`** — the names and numbers of a node can be written as tokens;
* **`Expr.indexIsPlain`** — the text of a node can be parsed;
* **`Expr.isReread`** — a node is read back as itself;
* **`MemberName.ofText`** — the name of a member from its text.

Design notes: the conditions are Boolean functions of a single node, so that they can be computed,
and a tree satisfies one of them if all of its nodes do.
-/
import PathQuery.Proofs.Derivation
import PathQuery.Proofs.Token.Lexed

namespace PathQuery

/-! ### Members by number -/

/-- Whether a text is a decimal numeral without needless zeros that fits 63 bits. -/
def isIndex (name : String) : Bool :=
  let n := Nat.ofDigitChars 10 name.toList 0
  decide (n < 2 ^ 63) && name.toList == Nat.toDigits 10 n

theorem isIndex_iff {name : String} :
    isIndex name = true ↔ ∃ n < 2 ^ 63, name.toList = Nat.toDigits 10 n := by
  simp only [isIndex, Bool.and_eq_true, decide_eq_true_eq, beq_iff_eq]
  constructor
  · exact fun h => ⟨_, h.1, h.2⟩
  · rintro ⟨n, hn, h⟩
    rw [h, Nat.ofDigitChars_ten_toDigits]
    exact ⟨hn, rfl⟩

/-- An index starts with a digit, a name does not. -/
theorem isIndex_eq_false {name : String} (h : IsName name) : isIndex name = false := by
  by_contra hindex
  obtain ⟨n, -, hn⟩ := isIndex_iff.1 (by simpa using hindex)
  obtain ⟨c, hc, hstart⟩ := h.word.1
  have hdigit : c.isDigit = true := by
    refine Nat.isDigit_of_mem_toDigits (b := 10) (n := n) (by decide) (by decide) ?_
    rw [← hn]
    exact List.mem_of_mem_head? hc
  rw [isNameStart_of_isDigit hdigit] at hstart
  exact absurd hstart (by decide)

theorem toInt_ofInt_natCast {n : Nat} (h : n < 2 ^ 63) : (Int64.ofInt n).toInt = n :=
  Int64.toInt_ofInt_of_le (by omega) (by omega)

theorem not_ofInt_lt_zero {n : Nat} (h : n < 2 ^ 63) : ¬ Int64.ofInt n < 0 := by
  rw [Int64.lt_iff_toInt_lt, toInt_ofInt_natCast h, Int64.toInt_zero]
  omega

theorem lt_of_isIndex {name : String} (h : isIndex name = true) :
    Nat.ofDigitChars 10 name.toList 0 < 2 ^ 63 := by
  simp only [isIndex, Bool.and_eq_true, decide_eq_true_eq] at h
  exact h.1

/-- The name of a member with the given text. -/
def MemberName.ofText (name : String) : MemberName :=
  if h : isIndex name = true then
    .index (Int64.ofInt (Nat.ofDigitChars 10 name.toList 0 : Nat))
      (not_ofInt_lt_zero (lt_of_isIndex h))
  else .identifier name

namespace MemberName

theorem ofText_of_isIndex {name : String} {n : Nat} (hn : n < 2 ^ 63)
    (h : name.toList = Nat.toDigits 10 n) :
    ofText name = .index (Int64.ofInt n) (not_ofInt_lt_zero hn) := by
  have hvalue : Nat.ofDigitChars 10 name.toList 0 = n := by
    rw [h, Nat.ofDigitChars_ten_toDigits]
  rw [ofText, dif_pos (isIndex_iff.2 ⟨n, hn, h⟩)]
  simp only [hvalue]

theorem ofText_of_isName {name : String} (h : IsName name) : ofText name = .identifier name := by
  rw [ofText, dif_neg (by simp [isIndex_eq_false h])]

theorem text_ofText (name : String) : (ofText name).text = name := by
  by_cases hindex : isIndex name = true
  · obtain ⟨n, hn, h⟩ := isIndex_iff.1 hindex
    rw [ofText_of_isIndex hn h, text, toInt_ofInt_natCast hn]
    refine String.toList_inj.1 ?_
    rw [h]
    exact Nat.toList_repr
  · rw [ofText, dif_neg (by simp [hindex])]
    rfl

end MemberName

/-! ### Conditions on all nodes -/

namespace Expr

mutual

/-- Whether all nodes of a tree satisfy a condition. -/
def all (p : Expr → Bool) : Expr → Bool
  | .literal v => p (.literal v)
  | .variable m => p (.variable m)
  | .list es => p (.list es) && allList p es
  | .arguments es => p (.arguments es) && allList p es
  | .member o m s => p (.member o m s) && all p o
  | .memberCall o m args s => p (.memberCall o m args s) && all p o && allList p args
  | .call m args => p (.call m args) && allList p args
  | .arithmetic op l r => p (.arithmetic op l r) && all p l && all p r
  | .comparison op l r => p (.comparison op l r) && all p l && all p r
  | .logical op l r => p (.logical op l r) && all p l && all p r
  | .coalesce l r => p (.coalesce l r) && all p l && all p r
  | .ternary c t o => p (.ternary c t o) && all p c && all p t && all p o
  | .elvis c o => p (.elvis c o) && all p c && all p o
  | .closure params body => p (.closure params body) && all p body

/-- Whether all nodes of all trees of a list satisfy a condition. -/
def allList (p : Expr → Bool) : List Expr → Bool
  | [] => true
  | e :: rest => all p e && allList p rest

end

/-- All nodes of a list are those of its trees. -/
theorem allList_iff {p : Expr → Bool} {es : List Expr} :
    allList p es = true ↔ ∀ e ∈ es, e.all p = true := by
  induction es with
  | nil => simp [allList]
  | cons e rest ih => simp [allList, ih]

theorem all_join (p : Expr → Bool) (op : BinaryOp) (l r : Expr) :
    (op.join l r).all p = (p (op.join l r) && l.all p && r.all p) := by
  cases op <;> rfl

/-! ### Induction over trees -/

section

variable {motive : Expr → Prop}
  (literal : ∀ v, motive (.literal v))
  (name : ∀ m, motive (.variable m))
  (list : ∀ es, (∀ e ∈ es, motive e) → motive (.list es))
  (arguments : ∀ es, (∀ e ∈ es, motive e) → motive (.arguments es))
  (member : ∀ o m s, motive o → motive (.member o m s))
  (memberCall : ∀ o m args s, motive o → (∀ e ∈ args, motive e) → motive (.memberCall o m args s))
  (call : ∀ m args, (∀ e ∈ args, motive e) → motive (.call m args))
  (operation : ∀ (op : BinaryOp) l r, motive l → motive r → motive (op.join l r))
  (ternary : ∀ c t o, motive c → motive t → motive o → motive (.ternary c t o))
  (elvis : ∀ c o, motive c → motive o → motive (.elvis c o))
  (closure : ∀ params body, motive body → motive (.closure params body))

include literal name list arguments member memberCall call operation ternary elvis closure

/-- Induction over trees.  Operations on two operands are one case, and a list of trees brings its
elements. -/
@[elab_as_elim]
theorem treeInduction (e : Expr) : motive e :=
  @Expr.rec motive (fun es => ∀ e ∈ es, motive e) literal name list arguments member memberCall call
    (fun op => operation (.arithmetic op)) (fun op => operation (.comparison op))
    (fun op => operation (.logical op)) (operation .coalesce) ternary elvis closure
    (fun _ h => absurd h List.not_mem_nil)
    (fun _ _ hfirst hrest => List.forall_mem_cons.2 ⟨hfirst, hrest⟩) e

end

theorem allList_and {p q : Expr → Bool} {es : List Expr}
    (h : ∀ e ∈ es, e.all (fun e => p e && q e) = (e.all p && e.all q)) :
    allList (fun e => p e && q e) es = (allList p es && allList q es) := by
  induction es with
  | nil => rfl
  | cons e rest ih =>
    rw [List.forall_mem_cons] at h
    simp only [allList, h.1, ih h.2]
    ac_rfl

/-- All nodes satisfy two conditions if they satisfy each. -/
theorem all_and (p q : Expr → Bool) (e : Expr) :
    e.all (fun e => p e && q e) = (e.all p && e.all q) := by
  induction e using treeInduction with
  | literal v => rfl
  | name m => rfl
  | list es ih => simp only [all, allList_and ih]; ac_rfl
  | arguments es ih => simp only [all, allList_and ih]; ac_rfl
  | member o m s ho => simp only [all, ho]; ac_rfl
  | memberCall o m args s ho ih => simp only [all, ho, allList_and ih]; ac_rfl
  | call m args ih => simp only [all, allList_and ih]; ac_rfl
  | operation op l r hl hr => simp only [all_join, hl, hr]; ac_rfl
  | ternary c t o hc ht ho => simp only [all, hc, ht, ho]; ac_rfl
  | elvis c o hc ho => simp only [all, hc, ho]; ac_rfl
  | closure params body hbody => simp only [all, hbody]; ac_rfl

/-- Whether a node can be written as tokens: its names are read as names, numbers have tokens, and
it is no argument list on its own. -/
def isWritable : Expr → Bool
  | .literal (.number (.integer n)) => n != Int64.minValue
  | .literal (.number (.float x)) => !x.isNaN
  | .variable m => isName m
  | .arguments _ => false
  | .member _ m _ => isName m || isIndex m
  | .memberCall _ m _ _ => isName m || isIndex m
  | .call m _ => isName m
  | .closure params _ => params.all isName
  | _ => true

/-- Whether a node is no infinite or undefined float. -/
def isFiniteFloat : Expr → Bool
  | .literal (.number (.float x)) => x.isFinite
  | _ => true

/-- Whether a node is no null-safe step by number. -/
def indexIsPlain : Expr → Bool
  | .member _ m nullSafe => !(nullSafe && isIndex m)
  | .memberCall _ m _ nullSafe => !(nullSafe && isIndex m)
  | _ => true

/-- Whether a node is a null-safe member step. -/
def isNullSafeStep : Expr → Bool
  | .member _ _ nullSafe => nullSafe
  | .memberCall _ _ _ nullSafe => nullSafe
  | _ => false

/-- Whether a node is no plain member step directly on a null-safe one. -/
def keepsNullSafe : Expr → Bool
  | .member o _ nullSafe => nullSafe || !o.isNullSafeStep
  | .memberCall o _ _ nullSafe => nullSafe || !o.isNullSafeStep
  | _ => true

/-- Whether a node is read back as itself, if its parts are. -/
def isReread (e : Expr) : Bool := e.isFiniteFloat && e.keepsNullSafe

section

variable (op : BinaryOp) (l r : Expr)

/-! An operation satisfies all of these conditions itself. -/

@[simp] theorem isWritable_join : isWritable (op.join l r) = true := by cases op <;> rfl

@[simp] theorem indexIsPlain_join : indexIsPlain (op.join l r) = true := by cases op <;> rfl

@[simp] theorem isReread_join : isReread (op.join l r) = true := by cases op <;> rfl

end

end Expr

end PathQuery
