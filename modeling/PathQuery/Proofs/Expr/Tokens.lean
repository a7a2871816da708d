/-
The tokens of the canonical text.

* **`Expr.tokens`** — the tokens of a tree, written as its canonical text is;
* **`Expr.isLexed`** — the canonical text is read as these tokens, whatever follows it;
* **`Expr.tokenize_canonical`** — the tokens of the whole text.

Design notes: what follows a tree must not go on with its last token.  Behind a name or a number
that is a character of a name, and behind a number also a point; the canonical text puts numbers
into parentheses where a point follows.
-/
import PathQuery.Proofs.Expr.Nodes

namespace PathQuery

open Text

/-! ### The token printer -/

/-- The token of a magnitude; infinity is written as a name. -/
def Binary64.magnitudeToken (x : Binary64) : TokenKind :=
  if x.isFinite then .float (.ofMagnitude x.magnitudeBits) else .identifier "inf"

/-- The tokens of a number with its sign. -/
def signedTokens (negative : Bool) (magnitude : TokenKind) : List TokenKind :=
  if negative then [.symbol .minus, magnitude] else [magnitude]

def Literal.tokens : Literal → List TokenKind
  | .number (.integer n) => signedTokens (n < 0) (.integer (if n < 0 then -n else n))
  | .number (.float x) => signedTokens x.isNegative x.magnitudeToken
  | v => [v.token]

def parenthesizeTokens (needed : Bool) (tokens : List TokenKind) : List TokenKind :=
  if needed then .symbol .leftParen :: (tokens ++ [.symbol .rightParen]) else tokens

/-- The tokens of a member step.  A null-safe mark in front of a digit is two tokens. -/
def stepTokens (nullSafe : Bool) (name : String) : List TokenKind :=
  if nullSafe && isIndex name then
    [.symbol .question, .symbol .dot, (MemberName.ofText name).token]
  else [.symbol (dotSymbol nullSafe), (MemberName.ofText name).token]

/-- The tokens of an operation on two operands. -/
def operationTokens (op : BinaryOp) (left right : List TokenKind) : List TokenKind :=
  .symbol .leftParen :: (left ++ .symbol op.symbol :: (right ++ [.symbol .rightParen]))

namespace Expr

mutual

/-- The tokens of the canonical text. -/
@[simp] def tokens : Expr → List TokenKind
  | .literal v => v.tokens
  | .variable m => [.identifier m]
  | .list es => .symbol .leftBracket :: (tokensList es ++ [.symbol .rightBracket])
  | .arguments es => .symbol .leftParen :: (tokensList es ++ [.symbol .rightParen])
  | .member o m s => parenthesizeTokens (o.isNumber || o.isClosure) (tokens o) ++ stepTokens s m
  | .memberCall o m args s =>
    parenthesizeTokens (o.isNumber || o.isClosure) (tokens o) ++ (stepTokens s m ++
      .symbol .leftParen :: (tokensList args ++ [.symbol .rightParen]))
  | .call m args =>
    .identifier m :: .symbol .leftParen :: (tokensList args ++ [.symbol .rightParen])
  | .arithmetic op l r =>
    operationTokens (.arithmetic op) (parenthesizeTokens l.isClosure (tokens l))
      (parenthesizeTokens r.isClosure (tokens r))
  | .comparison op l r =>
    operationTokens (.comparison op) (parenthesizeTokens l.isClosure (tokens l))
      (parenthesizeTokens r.isClosure (tokens r))
  | .logical op l r =>
    operationTokens (.logical op) (parenthesizeTokens l.isClosure (tokens l))
      (parenthesizeTokens r.isClosure (tokens r))
  | .coalesce l r =>
    operationTokens .coalesce (parenthesizeTokens l.isClosure (tokens l))
      (parenthesizeTokens r.isClosure (tokens r))
  | .ternary c t o =>
    .symbol .leftParen :: (parenthesizeTokens c.isClosure (tokens c) ++ .symbol .question ::
      (parenthesizeTokens t.isClosure (tokens t) ++ .symbol .colon ::
        (tokens o ++ [.symbol .rightParen])))
  | .elvis c o =>
    .symbol .leftParen :: (parenthesizeTokens c.isClosure (tokens c) ++ .symbol .question ::
      .symbol .colon :: (tokens o ++ [.symbol .rightParen]))
  | .closure params body => closureHead true params false ++ tokens body

/-- The tokens of trees with commas between them. -/
@[simp] def tokensList : List Expr → List TokenKind
  | [] => []
  | e :: rest => tokens e ++ tokensRest rest

/-- The tokens of trees, each behind a comma. -/
@[simp] def tokensRest : List Expr → List TokenKind
  | [] => []
  | e :: rest => .symbol .comma :: (tokens e ++ tokensRest rest)

end

attribute [simp] canonical canonicalList canonicalRest

end Expr

variable {afterDot : Bool} {rest : List Char} {ks : List TokenKind}

/-! ### Symbols in the canonical text -/

theorem Lexes.symbol {text : List Char} {symbol : Symbol} {width : Nat}
    (h : symbolAt text = some (symbol, width))
    (hr : Lexes (TokenKind.symbol symbol).isDot (text.drop width) ks) :
    Lexes afterDot text (.symbol symbol :: ks) := .cons (.symbol h) hr

theorem Lexes.leftParen (hr : Lexes false rest ks) :
    Lexes afterDot ('(' :: rest) (.symbol .leftParen :: ks) := .symbol rfl hr

theorem Lexes.rightParen (hr : Lexes false rest ks) :
    Lexes afterDot (')' :: rest) (.symbol .rightParen :: ks) := .symbol rfl hr

theorem Lexes.leftBracket (hr : Lexes false rest ks) :
    Lexes afterDot ('[' :: rest) (.symbol .leftBracket :: ks) := .symbol rfl hr

theorem Lexes.rightBracket (hr : Lexes false rest ks) :
    Lexes afterDot (']' :: rest) (.symbol .rightBracket :: ks) := .symbol rfl hr

theorem Lexes.comma (hr : Lexes false rest ks) :
    Lexes afterDot (',' :: rest) (.symbol .comma :: ks) := .symbol rfl hr

theorem Lexes.minus (hr : Lexes false rest ks) :
    Lexes afterDot ('-' :: rest) (.symbol .minus :: ks) := .symbol rfl hr

/-- An operator of any kind between blanks. -/
theorem Lexes.operator (op : BinaryOp) (hr : Lexes false rest ks) :
    Lexes afterDot (' ' :: (op.symbol.spelling.toList ++ ' ' :: rest))
      (.symbol op.symbol :: ks) := by
  have hspaced : Lexes false (' ' :: rest) ks := hr.space
  refine Lexes.space ?_
  cases op with
  | coalesce => exact .symbol rfl hspaced
  | logical op => cases op <;> exact .symbol rfl hspaced
  | comparison op => cases op <;> exact .symbol rfl hspaced
  | arithmetic op => cases op <;> exact .symbol rfl hspaced

/-! ### What may follow -/

theorem StopsAt.cons {p : Char → Bool} {c : Char} (h : p c = false) (cs : List Char) :
    StopsAt p (c :: cs) := by
  intro d hd
  obtain rfl : c = d := by simpa using hd
  exact h

/-- The text goes on with neither a name nor a point. -/
structure Ends (rest : List Char) : Prop where
  no_part : StopsAt isNamePart rest
  no_point : rest.head? ≠ some '.'

theorem Ends.cons {c : Char} (h : isNamePart c = false) (hc : c ≠ '.') (cs : List Char) :
    Ends (c :: cs) := ⟨.cons h cs, by simpa using hc⟩

theorem Ends.nil : Ends [] := ⟨fun c hc => by simp at hc, by simp⟩

/-- The text does not go on with the last token of a tree. -/
structure Expr.Followed (e : Expr) (rest : List Char) : Prop where
  no_part : StopsAt isNamePart rest
  no_point : (e.isNumber || e.isClosure) = true → rest.head? ≠ some '.'

theorem Ends.followed (h : Ends rest) (e : Expr) : e.Followed rest :=
  ⟨h.no_part, fun _ => h.no_point⟩

theorem fractionDigits_of_ends (h : rest.head? ≠ some '.') : fractionDigits afterDot rest = [] := by
  cases rest with
  | nil => rfl
  | cons c cs =>
    unfold fractionDigits
    split
    case h_1 rest' heq => exact absurd (by rw [(List.cons.inj heq).1]; rfl) h
    case h_2 => rfl

/-! ### Literals -/

/-- A word of the language. -/
theorem Lexes.word {cs : List Char} {kind : TokenKind} (hw : IsWord cs)
    (hk : wordKind (String.ofList cs) = kind) (hdot : kind.isDot = false)
    (hs : StopsAt isNamePart rest) (hr : Lexes false rest ks) :
    Lexes afterDot (cs ++ rest) (kind :: ks) := by
  subst hk
  exact .cons (.word hw hs) (by rwa [hdot])

theorem Lexes.signed {negative : Bool} {magnitude : List Char} {token : TokenKind}
    (h : Lexes false (magnitude ++ rest) (token :: ks)) :
    Lexes false ((if negative then '-' :: magnitude else magnitude) ++ rest)
      (signedTokens negative token ++ ks) := by
  cases negative with
  | true => exact Lexes.minus h
  | false => exact h

theorem Lexes.natural {n : Nat} (hn : n < 2 ^ 63) (hs : StopsAt isNamePart rest)
    (hpoint : fractionDigits afterDot rest = []) (hr : Lexes false rest ks) :
    Lexes afterDot (Nat.toDigits 10 n ++ rest) (.integer (Int64.ofInt n) :: ks) :=
  .cons (.integer hn hs.isDigit hpoint) hr

theorem Lexes.integer {n : Int64} (hn : n ≠ Int64.minValue) (hr : Ends rest)
    (hk : Lexes false rest ks) : Lexes false ((toString n.toInt).toList ++ rest)
      ((Literal.number (.integer n)).tokens ++ ks) := by
  have hlow := n.le_toInt
  have hhigh := n.toInt_lt
  have hmin : n.toInt ≠ -2 ^ 63 :=
    fun h => hn (Int64.toInt_inj.1 (h.trans Int64.toInt_minValue.symm))
  have hpoint : fractionDigits false rest = [] := fractionDigits_of_ends hr.no_point
  rw [Int.toString_eq_repr, Int.repr_eq_if, Literal.tokens]
  by_cases hneg : n < 0
  · have hlt : n.toInt < 0 := by rwa [Int64.lt_iff_toInt_lt, Int64.toInt_zero] at hneg
    -- The magnitude fits, since the smallest integer is left out.
    have hvalue : Int64.ofInt ((-n.toInt).toNat : Nat) = -n := by
      rw [Int.toNat_of_nonneg (by omega), Int64.ofInt_neg, Int64.ofInt_toInt]
    have hdigits : ("-" ++ (-n.toInt).toNat.repr).toList =
        '-' :: Nat.toDigits 10 (-n.toInt).toNat := by
      rw [String.toList_append, Nat.toList_repr]
      rfl
    rw [if_neg (by omega), hdigits, if_pos hneg, decide_eq_true hneg, ← hvalue]
    exact Lexes.minus (.natural (by omega) hr.no_part hpoint hk)
  · have hle : 0 ≤ n.toInt := by
      rw [Int64.lt_iff_toInt_lt, Int64.toInt_zero] at hneg
      omega
    have hvalue : Int64.ofInt (n.toInt.toNat : Nat) = n := by
      rw [Int.toNat_of_nonneg hle, Int64.ofInt_toInt]
    have hdigits := Lexes.natural (n := n.toInt.toNat) (by omega) hr.no_part hpoint hk
    rw [hvalue] at hdigits
    rw [if_pos hle, Nat.toList_repr, if_neg hneg, decide_eq_false hneg]
    exact hdigits

/-- The text of a finite float is its sign and its shortest numeral with a point. -/
theorem toList_floatLiteral {x : Binary64} (hx : x.isFinite = true) :
    (floatLiteral x).toList =
      if x.isNegative then '-' :: (x.shortest .upper).pointed else (x.shortest .upper).pointed := by
  have hle : x.magnitudeBits < Binary64.infinityBits := of_decide_eq_true hx
  have hnan : x.isNaN = false := decide_eq_false (Nat.not_lt.2 (Nat.le_of_lt hle))
  have hinfinite : x.isInfinite = false := beq_eq_false_iff_ne.2 (Nat.ne_of_lt hle)
  rw [floatLiteral, Binary64.text, Numeral.pointed]
  simp only [hnan, hinfinite, hx, Bool.false_eq_true, if_false, Bool.not_true, Bool.or_false]
  cases x.isNegative <;> cases hpoint : (x.shortest .upper).positional.contains '.' <;>
    simp_all [String.toList_append]

theorem Lexes.float {x : Binary64} (hx : x.isNaN = false) (hr : Ends rest)
    (hk : Lexes false rest ks) : Lexes false ((floatLiteral x).toList ++ rest)
      ((Literal.number (.float x)).tokens ++ ks) := by
  rw [Literal.tokens, Binary64.magnitudeToken]
  cases hfinite : x.isFinite with
  | true =>
    -- The sign is a token of its own, and the rest is read as the shortest numeral.
    obtain ⟨whole, fraction, hpointed, hwritten⟩ := (x.shortest .upper).exists_isWritten
    rw [toList_floatLiteral hfinite, hpointed]
    refine Lexes.signed ?_
    have hscans := Scans.float hwritten.whole_ne hwritten.whole_digits hwritten.fraction_ne
      hwritten.fraction_digits hr.no_part.isDigit
    rw [hwritten.value, Binary64.toBinary64_shortest hfinite] at hscans
    rw [List.append_assoc, List.cons_append]
    exact .cons hscans hk
  | false =>
    -- Infinity is written as a word.
    have hinfinite : x.isInfinite = true := by
      have hge : ¬ x.magnitudeBits < Binary64.infinityBits := of_decide_eq_false hfinite
      have hle : ¬ Binary64.infinityBits < x.magnitudeBits := of_decide_eq_false hx
      exact beq_iff_eq.2 (by omega)
    have htext : (floatLiteral x).toList =
        if x.isNegative then '-' :: ['i', 'n', 'f'] else ['i', 'n', 'f'] := by
      rw [floatLiteral, Binary64.text]
      simp only [hx, hinfinite, hfinite]
      cases x.isNegative <;> simp
    rw [htext, if_neg Bool.false_ne_true]
    refine Lexes.signed ?_
    exact .word (isWord_of_all (by decide) (by decide)) (by decide) rfl hr.no_part hk

theorem Lexes.literal {v : Literal} (hv : Expr.isWritable (.literal v) = true)
    (hr : (Expr.literal v).Followed rest) (hk : Lexes false rest ks) :
    Lexes false (v.canonical.toList ++ rest) (v.tokens ++ ks) := by
  cases v with
  | null =>
    exact .word (isWord_of_all (by decide) (by decide)) (by decide) rfl hr.no_part hk
  | boolean b =>
    cases b with
    | false => exact .word (isWord_of_all (by decide) (by decide)) (by decide) rfl hr.no_part hk
    | true => exact .word (isWord_of_all (by decide) (by decide)) (by decide) rfl hr.no_part hk
  | string s => exact .cons (.string s rest) hk
  | number x =>
    have hends : Ends rest := ⟨hr.no_part, hr.no_point rfl⟩
    cases x with
    | integer n => exact .integer (by simpa [Expr.isWritable] using hv) hends hk
    | float x => exact .float (by simpa [Expr.isWritable] using hv) hends hk

/-! ### Member steps and parameters -/

theorem symbolAt_question_dot (cs : List Char) : symbolAt ('?' :: '.' :: cs) =
    if startsWithDigit cs then some (.question, 1) else some (.nullSafeDot, 2) := rfl

theorem symbolAt_nullSafeDot {c : Char} (hc : isNameStart c = true) (cs : List Char) :
    symbolAt ('?' :: '.' :: c :: cs) = some (.nullSafeDot, 2) := by
  have hdigit : c.isDigit = false := by
    by_contra h
    rw [isNameStart_of_isDigit (by simpa using h)] at hc
    exact absurd hc (by decide)
  rw [symbolAt_question_dot, startsWithDigit, hdigit]
  rfl

theorem symbolAt_question_digit {c : Char} (hc : c.isDigit = true) (cs : List Char) :
    symbolAt ('?' :: '.' :: c :: cs) = some (.question, 1) := by
  rw [symbolAt_question_dot, startsWithDigit, hc]
  rfl

/-- A step by name is a mark and a name. -/
theorem Lexes.step_name {m : String} (hm : IsName m) (nullSafe : Bool)
    (hs : StopsAt isNamePart rest) (hr : Lexes false rest ks) :
    Lexes false ((dotText nullSafe).toList ++ (m.toList ++ rest))
      (stepTokens nullSafe m ++ ks) := by
  have hname : Lexes true (m.toList ++ rest) (.identifier m :: ks) := .cons (.name hm hs) hr
  rw [stepTokens, isIndex_eq_false hm, Bool.and_false, if_neg Bool.false_ne_true,
    MemberName.ofText_of_isName hm]
  cases nullSafe with
  | false => exact .symbol rfl hname
  -- A null-safe mark is one token, since a name does not start with a digit.
  | true =>
    obtain ⟨⟨c, hc, hstart⟩, -⟩ := hm.word
    obtain ⟨cs, hcs⟩ := List.head?_eq_some_iff.1 hc
    have hmark : symbolAt ('?' :: '.' :: (m.toList ++ rest)) = some (.nullSafeDot, 2) := by
      rw [hcs]
      exact symbolAt_nullSafeDot hstart _
    exact .symbol hmark hname

/-- A step by number is a mark and a number; a null-safe mark falls apart. -/
theorem Lexes.step_index {m : String} (hm : isIndex m = true) (nullSafe : Bool)
    (hs : StopsAt isNamePart rest) (hr : Lexes false rest ks) :
    Lexes false ((dotText nullSafe).toList ++ (m.toList ++ rest))
      (stepTokens nullSafe m ++ ks) := by
  obtain ⟨n, hn, hdigits⟩ := isIndex_iff.1 hm
  have hindex : Lexes true (m.toList ++ rest) ((MemberName.ofText m).token :: ks) := by
    rw [hdigits, MemberName.ofText_of_isIndex hn hdigits]
    refine .natural hn hs ?_ hr
    unfold fractionDigits
    split <;> rfl
  rw [stepTokens, hm, Bool.and_true]
  cases nullSafe with
  | false => exact .symbol rfl hindex
  | true =>
    obtain ⟨c, cs, hcs⟩ := List.exists_cons_of_ne_nil (Nat.toDigits_ne_nil (n := n) (b := 10))
    have hc : c.isDigit = true := by
      refine Nat.isDigit_of_mem_toDigits (b := 10) (n := n) (by decide) (by decide) ?_
      rw [hcs]
      exact List.mem_cons_self
    have hmark : symbolAt ('?' :: '.' :: (m.toList ++ rest)) = some (.question, 1) := by
      rw [hdigits, hcs]
      exact symbolAt_question_digit hc _
    -- In front of a digit the question mark and the point are two tokens.
    exact .symbol hmark (.symbol rfl hindex)

theorem Lexes.step {m : String} (hm : (isName m || isIndex m) = true) (nullSafe : Bool)
    (hs : StopsAt isNamePart rest) (hr : Lexes false rest ks) :
    Lexes false ((dotText nullSafe).toList ++ (m.toList ++ rest))
      (stepTokens nullSafe m ++ ks) := by
  rcases Bool.or_eq_true_iff.1 hm with hm | hm
  · exact .step_name (isName_iff.1 hm) nullSafe hs hr
  · exact .step_index hm nullSafe hs hr

theorem Lexes.parameters (params : List String) (h : params.all isName = true) (hs : Ends rest)
    (hr : Lexes false rest ks) :
    Lexes false ((", ".intercalate params).toList ++ rest)
      (parameterTokens params false ++ ks) := by
  induction params with
  | nil =>
    rw [String.intercalate_nil]
    exact hr
  | cons m params ih =>
    obtain ⟨hm, hparams⟩ := Bool.and_eq_true_iff.1 (List.all_cons ▸ h)
    have hname := isName_iff.1 hm
    cases params with
    | nil =>
      rw [String.intercalate_singleton]
      exact .cons (.name hname hs.no_part) hr
    | cons next params =>
      rw [String.intercalate_cons_cons, String.toList_append, String.toList_append,
        List.append_assoc, List.append_assoc]
      exact .cons (.name hname (.cons (by decide) _)) (.comma (.space (ih hparams)))

/-! ### Trees -/

namespace Expr

/-- The canonical text of a tree is read as its tokens. -/
def IsLexed (e : Expr) : Prop := ∀ ⦃rest : List Char⦄ ⦃ks : List TokenKind⦄, e.Followed rest →
  Lexes false rest ks → Lexes false (e.canonical.toList ++ rest) (e.tokens ++ ks)

theorem IsLexed.parenthesize {e : Expr} (he : e.IsLexed) {needed : Bool}
    (hs : needed = true ∨ e.Followed rest) (hr : Lexes false rest ks) :
    Lexes false ((parenthesize needed e.canonical).toList ++ rest)
      (parenthesizeTokens needed e.tokens ++ ks) := by
  cases needed with
  | false => exact he (hs.resolve_left Bool.false_ne_true) hr
  | true =>
    have hinner := he ((Ends.cons (by decide) (by decide) _).followed e) (Lexes.rightParen hr)
    have htext : (PathQuery.parenthesize true e.canonical).toList ++ rest =
        '(' :: (e.canonical.toList ++ ')' :: rest) := by
      simp [PathQuery.parenthesize, String.toList_append]
    have htokens : parenthesizeTokens true e.tokens ++ ks =
        .symbol .leftParen :: (e.tokens ++ .symbol .rightParen :: ks) := by
      simp [parenthesizeTokens]
    rw [htext, htokens]
    exact .leftParen hinner

/-- An operand stands in front of a blank or a closing parenthesis. -/
theorem IsLexed.operand {e : Expr} (he : e.IsLexed) (hs : Ends rest) (hr : Lexes false rest ks) :
    Lexes false ((PathQuery.parenthesize e.isClosure e.canonical).toList ++ rest)
      (parenthesizeTokens e.isClosure e.tokens ++ ks) := he.parenthesize (.inr (hs.followed e)) hr

theorem IsLexed.object {e : Expr} (he : e.IsLexed) (hs : StopsAt isNamePart rest)
    (hr : Lexes false rest ks) :
    Lexes false ((PathQuery.parenthesize (e.isNumber || e.isClosure) e.canonical).toList ++ rest)
      (parenthesizeTokens (e.isNumber || e.isClosure) e.tokens ++ ks) := by
  refine he.parenthesize ?_ hr
  cases hneeded : e.isNumber || e.isClosure with
  | false => exact .inr ⟨hs, fun h => absurd h (by simp [hneeded])⟩
  | true => exact .inl rfl

/-! ### Operations -/

/-- The canonical text of an operation. -/
def operationText (op : BinaryOp) (l r : Expr) : List Char :=
  '(' :: ((PathQuery.parenthesize l.isClosure l.canonical).toList ++
    ' ' :: (op.symbol.spelling.toList ++
      ' ' :: ((PathQuery.parenthesize r.isClosure r.canonical).toList ++ [')'])))

theorem toList_canonical_join (op : BinaryOp) (l r : Expr) :
    (op.join l r).canonical.toList = operationText op l r := by
  cases op with
  | coalesce =>
    simp [BinaryOp.join, canonical, operationText, BinaryOp.symbol, Symbol.spelling]
  | logical op =>
    cases op <;> simp [BinaryOp.join, canonical, operationText, BinaryOp.symbol, Symbol.spelling,
      LogicalOp.symbol]
  | comparison op =>
    cases op <;> simp [BinaryOp.join, canonical, operationText, BinaryOp.symbol, Symbol.spelling,
      ComparisonOp.symbol]
  | arithmetic op =>
    cases op <;> simp [BinaryOp.join, canonical, operationText, BinaryOp.symbol, Symbol.spelling,
      ArithmeticOp.symbol]

theorem tokens_join (op : BinaryOp) (l r : Expr) :
    (op.join l r).tokens = operationTokens op (parenthesizeTokens l.isClosure l.tokens)
      (parenthesizeTokens r.isClosure r.tokens) := by
  cases op <;> rfl

theorem isLexed_join (op : BinaryOp) {l r : Expr} (hl : l.IsLexed) (hr : r.IsLexed) :
    (op.join l r).IsLexed := by
  intro rest ks _ hrest
  have hright := hr.operand (.cons (by decide) (by decide) _) (Lexes.rightParen hrest)
  have hleft := hl.operand (.cons (by decide) (by decide) _) (Lexes.operator op hright)
  have h : Lexes false ('(' :: _) _ := .leftParen hleft
  rw [toList_canonical_join, tokens_join]
  simpa [operationText, operationTokens] using h

/-! ### Conditionals, steps and closures -/

theorem isLexed_ternary {c t o : Expr} (hc : c.IsLexed) (ht : t.IsLexed) (ho : o.IsLexed) :
    (ternary c t o).IsLexed := by
  intro rest ks hs hr
  have hotherwise := ho ((Ends.cons (by decide) (by decide) _).followed o) (Lexes.rightParen hr)
  have hcolon : Lexes false (':' :: ' ' :: _) _ := .symbol rfl hotherwise.space
  have htrue := ht.operand (.cons (by decide) (by decide) _) hcolon.space
  have hquestion : Lexes false ('?' :: ' ' :: _) _ := .symbol rfl htrue.space
  have hcondition := hc.operand (.cons (by decide) (by decide) _) hquestion.space
  have h : Lexes false ('(' :: _) _ := .leftParen hcondition
  simpa [canonical, tokens, String.toList_append] using h

theorem isLexed_elvis {c o : Expr} (hc : c.IsLexed) (ho : o.IsLexed) : (elvis c o).IsLexed := by
  intro rest ks hs hr
  have hotherwise := ho ((Ends.cons (by decide) (by decide) _).followed o) (Lexes.rightParen hr)
  have hcolon : Lexes false (':' :: ' ' :: _) _ := .symbol rfl hotherwise.space
  have hquestion : Lexes false ('?' :: ':' :: _) _ := .symbol rfl hcolon
  have hcondition := hc.operand (.cons (by decide) (by decide) _) hquestion.space
  have h : Lexes false ('(' :: _) _ := .leftParen hcondition
  simpa [canonical, tokens, String.toList_append] using h

theorem isLexed_member {o : Expr} {m : String} {nullSafe : Bool} (ho : o.IsLexed)
    (hm : (isName m || isIndex m) = true) : (member o m nullSafe).IsLexed := by
  intro rest ks hs hr
  have hstep := Lexes.step hm nullSafe hs.no_part hr
  have hmark : StopsAt isNamePart ((dotText nullSafe).toList ++ (m.toList ++ rest)) := by
    cases nullSafe <;> exact .cons (by decide) _
  simpa [canonical, tokens, String.toList_append] using ho.object hmark hstep

/-- Items between delimiters. -/
def ListIsLexed (es : List Expr) : Prop := ∀ ⦃rest : List Char⦄ ⦃ks : List TokenKind⦄,
  Ends rest → Lexes false rest ks → Lexes false ((canonicalList es).toList ++ rest)
    (tokensList es ++ ks)

/-- Items behind a comma each. -/
def RestIsLexed (es : List Expr) : Prop := ∀ ⦃rest : List Char⦄ ⦃ks : List TokenKind⦄,
  Ends rest → Lexes false rest ks → Lexes false ((canonicalRest es).toList ++ rest)
    (tokensRest es ++ ks)

theorem ListIsLexed.parentheses {es : List Expr} (h : ListIsLexed es) (hr : Lexes false rest ks) :
    Lexes false ('(' :: ((canonicalList es).toList ++ ')' :: rest))
      (.symbol .leftParen :: (tokensList es ++ .symbol .rightParen :: ks)) :=
  .leftParen (h (.cons (by decide) (by decide) _) (.rightParen hr))

theorem isLexed_memberCall {o : Expr} {m : String} {args : List Expr} {nullSafe : Bool}
    (ho : o.IsLexed) (hm : (isName m || isIndex m) = true) (hargs : ListIsLexed args) :
    (memberCall o m args nullSafe).IsLexed := by
  intro rest ks hs hr
  have hstep := Lexes.step hm nullSafe (.cons (by decide) _) (hargs.parentheses hr)
  have hmark : StopsAt isNamePart ((dotText nullSafe).toList ++ (m.toList ++
      '(' :: ((canonicalList args).toList ++ ')' :: rest))) := by
    cases nullSafe <;> exact .cons (by decide) _
  simpa [canonical, tokens, String.toList_append] using ho.object hmark hstep

theorem isLexed_call {m : String} {args : List Expr} (hm : isName m = true)
    (hargs : ListIsLexed args) : (call m args).IsLexed := by
  intro rest ks hs hr
  have h : Lexes false (m.toList ++ '(' :: _) _ :=
    .cons (.name (isName_iff.1 hm) (.cons (by decide) _)) (hargs.parentheses hr)
  simpa [canonical, tokens, String.toList_append] using h

theorem isLexed_list {es : List Expr} (hes : ListIsLexed es) : (list es).IsLexed := by
  intro rest ks hs hr
  have h : Lexes false ('[' :: _) _ :=
    .leftBracket (hes (.cons (by decide) (by decide) _) (.rightBracket hr))
  simpa [canonical, tokens, String.toList_append] using h

theorem isName_fn : isName "fn" = true := by decide

theorem isLexed_closure {params : List String} {body : Expr} (hparams : params.all isName = true)
    (hbody : body.IsLexed) : (closure params body).IsLexed := by
  intro rest ks hs hr
  have hinner := hbody ⟨hs.no_part, fun _ => hs.no_point rfl⟩ hr
  have harrow : Lexes false ('=' :: '>' :: ' ' :: _) _ := .symbol rfl hinner.space
  have hnames := Lexes.parameters params hparams (.cons (by decide) (by decide) _)
    (Lexes.rightParen harrow.space)
  have hfn : Lexes false ("fn".toList ++ '(' :: _) _ :=
    .cons (.name (isName_iff.1 isName_fn) (.cons (by decide) _)) (.leftParen hnames)
  simpa [canonical, tokens, closureHead, String.toList_append] using hfn

theorem ends_canonicalRest (es : List Expr) (h : Ends rest) :
    Ends ((canonicalRest es).toList ++ rest) := by
  cases es with
  | nil => simpa [canonicalRest] using h
  | cons e es =>
    rw [canonicalRest, String.toList_append, String.toList_append]
    exact .cons (by decide) (by decide) _

/-! ### All trees -/

theorem restIsLexed {es : List Expr} (h : ∀ e ∈ es, e.IsLexed) : RestIsLexed es := by
  induction es with
  | nil => exact fun _ _ _ hr => hr
  | cons e rest ih =>
    rw [List.forall_mem_cons] at h
    intro text ks hs hr
    have hrest := ih h.2 hs hr
    have hends := ends_canonicalRest rest hs
    have hcomma : Lexes false (',' :: ' ' :: _) _ :=
      .comma (h.1 (hends.followed e) hrest).space
    simpa [canonicalRest, tokensRest, String.toList_append] using hcomma

theorem listIsLexed {es : List Expr} (h : ∀ e ∈ es, e.IsLexed) : ListIsLexed es := by
  cases es with
  | nil => exact fun _ _ _ hr => hr
  | cons e rest =>
    rw [List.forall_mem_cons] at h
    intro text ks hs hr
    have hrest := restIsLexed h.2 hs hr
    have hends := ends_canonicalRest rest hs
    simpa [canonicalList, tokensList, String.toList_append] using h.1 (hends.followed e) hrest

/-- The canonical text is read as the tokens of the tree. -/
theorem isLexed (e : Expr) (h : e.all isWritable = true) : e.IsLexed := by
  induction e using treeInduction with
  | literal v => exact fun _ _ hs hr => .literal h hs hr
  | name m => exact fun _ _ hs hr => .cons (.name (isName_iff.1 h) hs.no_part) hr
  | list es ih =>
    simp only [all, Bool.and_eq_true] at h
    exact isLexed_list (listIsLexed fun e he => ih e he (allList_iff.1 h.2 e he))
  | arguments es => exact absurd h (by simp [all, isWritable])
  | member o m s ho =>
    simp only [all, Bool.and_eq_true] at h
    exact isLexed_member (ho h.2) h.1
  | memberCall o m args s ho ih =>
    simp only [all, Bool.and_eq_true] at h
    exact isLexed_memberCall (ho h.1.2) h.1.1
      (listIsLexed fun e he => ih e he (allList_iff.1 h.2 e he))
  | call m args ih =>
    simp only [all, Bool.and_eq_true] at h
    exact isLexed_call h.1 (listIsLexed fun e he => ih e he (allList_iff.1 h.2 e he))
  | operation op l r hl hr =>
    simp only [all_join, Bool.and_eq_true] at h
    exact isLexed_join op (hl h.1.2) (hr h.2)
  | ternary c t o hc ht ho =>
    simp only [all, Bool.and_eq_true] at h
    exact isLexed_ternary (hc h.1.1.2) (ht h.1.2) (ho h.2)
  | elvis c o hc ho =>
    simp only [all, Bool.and_eq_true] at h
    exact isLexed_elvis (hc h.1.2) (ho h.2)
  | closure params body hbody =>
    simp only [all, Bool.and_eq_true] at h
    exact isLexed_closure h.1 (hbody h.2)

/-- The whole canonical text has the tokens of the tree. -/
theorem tokenize_canonical {e : Expr} (h : e.all isWritable = true) :
    ∃ stream, tokenize e.canonical = .ok stream ∧ stream.kinds = e.tokens := by
  have hlexes := isLexed e h (Ends.nil.followed e) (Lexes.nil false)
  rw [List.append_nil, List.append_nil] at hlexes
  exact hlexes.tokenize

end Expr

end PathQuery
