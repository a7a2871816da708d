/-
Histories of a store.

Any number of engines share a store, and ask it in any order for the tree of a text.

* **`QueryCache.Access`, `QueryCache.ask`** — what a store is asked, and what it answers;
* **`QueryCache.get?_ask_of_ne`, `QueryCache.get?_askAll_of_ne`** — what is asked about one text
  does not show in another one;
* **`QueryCache.get?_askAll`** — a stored tree stays until all are forgotten;
* **`QueryCache.mem_names_askAll_iff`** — which texts have a tree;
* **`QueryCache.keepsFirst_askAll`** — the first tree of a text wins, after any history.

Design notes: the same stored tree is given again exactly if its number is; so what is said about
stored trees is said about them as things, not only as equal trees.
-/
import Mathlib.Data.List.DropRight
import Mathlib.Data.Finset.Card
import PathQuery.Proofs.Session.Store

namespace PathQuery

namespace QueryCache

/-! ### Requests -/

/-- Something that a store is asked. -/
inductive Access where
  | lookup (query : String)
  | insert (query : String) (tree : Expr)
  | compile (query : String)
  | clear

namespace Access

/-- The text that is asked about. -/
def query? : Access → Option String
  | .lookup query => some query
  | .insert query _ => some query
  | .compile query => some query
  | .clear => none

/-- The text that has a tree afterwards, whatever was stored before. -/
def stored? : Access → Option String
  | .insert query _ => some query
  | .compile query => if (Expr.parse query).isOk then some query else none
  | _ => none

def isClear : Access → Bool
  | .clear => true
  | _ => false

end Access

/-- The stored tree that is the answer, if there is one, and the store behind it. -/
def ask (c : QueryCache) : Access → Option StoredTree × QueryCache
  | .lookup query => (c.get? query, c)
  | .insert query tree => ((c.insert query tree).1, (c.insert query tree).2)
  | .compile query => ((c.compile query).1.toOption, (c.compile query).2)
  | .clear => (none, c.clear)

/-- The store behind requests made in order. -/
def askAll (c : QueryCache) (history : List Access) : QueryCache :=
  history.foldl (fun c access => (c.ask access).2) c

/-- The texts for which a tree was stored since all were last forgotten. -/
def storedSince (history : List Access) : List String :=
  (history.rtakeWhile (!·.isClear)).filterMap Access.stored?

variable {c : QueryCache} {q : String} {stored : StoredTree} {access : Access}

@[simp] theorem askAll_cons (c : QueryCache) (access : Access) (rest : List Access) :
    c.askAll (access :: rest) = (c.ask access).2.askAll rest := rfl

theorem askAll_concat (c : QueryCache) (history : List Access) (access : Access) :
    c.askAll (history ++ [access]) = ((c.askAll history).ask access).2 := List.foldl_concat ..

/-! ### One request -/

theorem get?_insert_self (c : QueryCache) (q : String) (tree : Expr) :
    (c.insert q tree).2.get? q = some (c.insert q tree).1 := by
  cases h : c.get? q with
  | some stored => rw [insert_of_get?_eq_some h, h]
  | none => rw [insert_of_get?_eq_none h, get?, Fields.lookup_insert, if_pos rfl]

theorem get?_insert_of_ne {other : String} (h : other ≠ q) (c : QueryCache) (tree : Expr) :
    (c.insert q tree).2.get? other = c.get? other := by
  cases hget : c.get? q with
  | some stored => rw [insert_of_get?_eq_some hget]
  | none => rw [insert_of_get?_eq_none hget, get?, Fields.lookup_insert, if_neg h, get?]

/-- The three ways to compile: the stored tree is given, one is stored, or parsing fails. -/
theorem compile_cases (c : QueryCache) (q : String) :
    (∃ stored, c.get? q = some stored ∧ c.compile q = (.ok stored, c)) ∨
      (∃ tree, c.get? q = none ∧ Expr.parse q = .ok tree ∧
        c.compile q = (.ok (c.insert q tree).1, (c.insert q tree).2)) ∨
      ∃ e, c.get? q = none ∧ Expr.parse q = .error e ∧ c.compile q = (.error e, c) := by
  cases hget : c.get? q with
  | some stored => exact .inl ⟨stored, rfl, compile_of_get?_eq_some hget⟩
  | none =>
    cases hparse : Expr.parse q with
    | ok tree => exact .inr (.inl ⟨tree, rfl, rfl, by rw [compile, hget, hparse]⟩)
    | error e => exact .inr (.inr ⟨e, rfl, rfl, by rw [compile, hget, hparse]⟩)

theorem compile_of_get?_eq_none (h : c.get? q = none) {tree : Expr}
    (htree : Expr.parse q = .ok tree) :
    c.compile q = (.ok (c.insert q tree).1, (c.insert q tree).2) := by
  rw [compile, h, htree]

/-- Where compiling fails there was no tree and none is stored. -/
theorem compile_eq_error_iff {e : ParseError} {c' : QueryCache} :
    c.compile q = (.error e, c') ↔ c.get? q = none ∧ Expr.parse q = .error e ∧ c = c' := by
  obtain ⟨stored, hget, hcompile⟩ | ⟨tree, hget, hparse, hcompile⟩ | ⟨e', hget, hparse, hcompile⟩ :=
    c.compile_cases q
  · simp [hget, hcompile]
  · simp [hparse, hcompile]
  · simp [hget, hparse, hcompile]

/-- What is stored for a text is answered to every request about it, and stays. -/
theorem ask_of_get?_eq_some (h : c.get? q = some stored) (hq : access.query? = some q) :
    c.ask access = (some stored, c) := by
  cases access with
  | lookup query =>
    obtain rfl := Option.some.inj hq
    rw [ask, h]
  | insert query tree =>
    obtain rfl := Option.some.inj hq
    rw [ask, insert_of_get?_eq_some h]
  | compile query =>
    obtain rfl := Option.some.inj hq
    rw [ask, compile_of_get?_eq_some h]
    rfl
  | clear => exact nomatch hq

/-- What is answered to a request about a text is stored for it. -/
theorem get?_of_ask_eq_some (h : (c.ask access).1 = some stored) (hq : access.query? = some q) :
    (c.ask access).2.get? q = some stored := by
  cases access with
  | lookup query =>
    obtain rfl := Option.some.inj hq
    exact h
  | insert query tree =>
    obtain rfl := Option.some.inj hq
    exact (get?_insert_self c query tree).trans h
  | compile query =>
    obtain rfl := Option.some.inj hq
    change (c.compile query).1.toOption = some stored at h
    change (c.compile query).2.get? query = some stored
    obtain ⟨other, hget, hcompile⟩ | ⟨tree, -, -, hcompile⟩ | ⟨e, -, -, hcompile⟩ :=
      c.compile_cases query
    · rw [hcompile] at h ⊢
      exact hget.trans h
    · rw [hcompile] at h ⊢
      exact (get?_insert_self c query tree).trans h
    · rw [hcompile] at h
      exact nomatch h
  | clear => exact nomatch hq

/-- A request about one text does not show in another one. -/
theorem get?_ask_of_ne (hclear : access.isClear = false) (hq : access.query? ≠ some q) :
    (c.ask access).2.get? q = c.get? q := by
  cases access with
  | lookup query => rfl
  | insert query tree => exact get?_insert_of_ne (fun h => hq (congrArg some h.symm)) c tree
  | compile query =>
    have hne : q ≠ query := fun h => hq (congrArg some h.symm)
    change (c.compile query).2.get? q = c.get? q
    obtain ⟨other, -, hcompile⟩ | ⟨tree, -, -, hcompile⟩ | ⟨e, -, -, hcompile⟩ :=
      c.compile_cases query
    · rw [hcompile]
    · rw [hcompile]
      exact get?_insert_of_ne hne c tree
    · rw [hcompile]
  | clear => exact nomatch hclear

/-! ### Histories -/

/-- Requests about other texts do not show, however many they are. -/
theorem get?_askAll_of_ne {history : List Access}
    (h : ∀ access ∈ history, access.isClear = false ∧ access.query? ≠ some q) :
    (c.askAll history).get? q = c.get? q := by
  induction history generalizing c with
  | nil => rfl
  | cons access rest ih =>
    obtain ⟨⟨hclear, hq⟩, hrest⟩ := List.forall_mem_cons.1 h
    rw [askAll_cons, ih hrest, get?_ask_of_ne hclear hq]

/-- A stored tree stays until all are forgotten. -/
theorem get?_askAll {history : List Access} (h : ∀ access ∈ history, access.isClear = false)
    (hget : c.get? q = some stored) : (c.askAll history).get? q = some stored := by
  induction history generalizing c with
  | nil => exact hget
  | cons access rest ih =>
    obtain ⟨hclear, hrest⟩ := List.forall_mem_cons.1 h
    refine ih hrest ?_
    -- A request about the text itself leaves the store as it is.
    by_cases hq : access.query? = some q
    · have hask := ask_of_get?_eq_some hget hq
      exact (congrArg (fun answer => answer.2.get? q) hask).trans hget
    · exact (get?_ask_of_ne hclear hq).trans hget

/-! ### Texts with a tree -/

theorem get?_eq_none_iff : c.get? q = none ↔ q ∉ Fields.names c.entries := by
  refine ⟨fun h hmem => ?_, Fields.lookup_eq_none⟩
  obtain ⟨entry, hentry, rfl⟩ := List.mem_map.1 hmem
  have hne := List.lookup_eq_none_iff.1 h entry hentry
  exact absurd rfl (bne_iff_ne.1 hne)

theorem mem_names_of_get? (h : c.get? q = some stored) : q ∈ Fields.names c.entries := by
  by_contra hmem
  exact nomatch h.symm.trans (get?_eq_none_iff.2 hmem)

theorem names_insert (c : QueryCache) (q : String) (tree : Expr) :
    Fields.names (c.insert q tree).2.entries =
      if q ∈ Fields.names c.entries then Fields.names c.entries
      else Fields.names c.entries ++ [q] := by
  cases h : c.get? q with
  | some stored => rw [insert_of_get?_eq_some h, if_pos (mem_names_of_get? h)]
  | none => rw [insert_of_get?_eq_none h, Fields.names_insert]

/-- A request other than to forget all leads to a tree for its text, if it stores one, and to no
other. -/
theorem mem_names_ask_iff (hclear : access.isClear = false) :
    q ∈ Fields.names (c.ask access).2.entries ↔
      q ∈ Fields.names c.entries ∨ access.stored? = some q := by
  have hinsert (query : String) (tree : Expr) :
      q ∈ Fields.names (c.insert query tree).2.entries ↔
        q ∈ Fields.names c.entries ∨ some query = some q := by
    rw [names_insert]
    split
    · rename_i hmem
      exact ⟨.inl, fun h => h.elim id fun h => Option.some.inj h ▸ hmem⟩
    · rw [List.mem_append, List.mem_singleton, Option.some.injEq, eq_comm (a := q)]
  cases access with
  | lookup query => simp [ask, Access.stored?]
  | insert query tree => exact hinsert query tree
  | compile query =>
    change q ∈ Fields.names (c.compile query).2.entries ↔ _ ∨ ite _ _ _ = some q
    obtain ⟨stored, hget, hcompile⟩ | ⟨tree, -, hparse, hcompile⟩ | ⟨e, -, hparse, hcompile⟩ :=
      c.compile_cases query
    · -- A text with a stored tree need not be one that can be parsed.
      rw [hcompile]
      refine ⟨.inl, fun h => h.elim id fun h => ?_⟩
      split at h
      · exact Option.some.inj h ▸ mem_names_of_get? hget
      · exact nomatch h
    · rw [hcompile, hparse]
      exact hinsert query tree
    · rw [hcompile, hparse]
      exact ⟨.inl, fun h => h.elim id fun h => nomatch h⟩
  | clear => exact nomatch hclear

theorem storedSince_concat (history : List Access) (access : Access) :
    storedSince (history ++ [access]) =
      if access.isClear then [] else storedSince history ++ access.stored?.toList := by
  cases h : access.isClear with
  | true => rw [storedSince, List.rtakeWhile_concat_neg _ _ _ (by simp [h])]; rfl
  | false =>
    rw [storedSince, List.rtakeWhile_concat_pos _ _ _ (by simp [h]), List.filterMap_append]
    cases hs : access.stored? <;> simp [storedSince, hs]

/-- The texts with a tree are those for which one was stored since all were last forgotten. -/
theorem mem_names_askAll_iff (history : List Access) (q : String) :
    q ∈ Fields.names (empty.askAll history).entries ↔ q ∈ storedSince history := by
  induction history using List.reverseRecOn with
  | nil => rfl
  | append_singleton history access ih =>
    rw [askAll_concat, storedSince_concat]
    cases hclear : access.isClear with
    | true =>
      cases access with
      | clear => rfl
      | _ => exact nomatch hclear
    | false =>
      rw [mem_names_ask_iff hclear, ih, if_neg Bool.false_ne_true, List.mem_append,
        Option.mem_toList]

/-- The store behind a request is the old one, the old one with a new tree, or an empty one. -/
theorem ask_cases (c : QueryCache) (access : Access) :
    (c.ask access).2 = c ∨ (∃ q tree, (c.ask access).2 = (c.insert q tree).2) ∨
      (c.ask access).2 = c.clear := by
  cases access with
  | lookup query => exact .inl rfl
  | insert query tree => exact .inr (.inl ⟨query, tree, rfl⟩)
  | compile query =>
    change (c.compile query).2 = c ∨ (∃ q tree, (c.compile query).2 = _) ∨ (c.compile query).2 = _
    obtain ⟨stored, -, hcompile⟩ | ⟨tree, -, -, hcompile⟩ | ⟨e, -, -, hcompile⟩ :=
      c.compile_cases query
    · exact .inl (congrArg Prod.snd hcompile)
    · exact .inr (.inl ⟨query, tree, congrArg Prod.snd hcompile⟩)
    · exact .inl (congrArg Prod.snd hcompile)
  | clear => exact .inr (.inr rfl)

/-- Texts with a tree are distinct, and the next number is above those of all stored trees. -/
structure IsWellKept (c : QueryCache) : Prop where
  nodup : (Fields.names c.entries).Nodup
  id_lt : ∀ q stored, c.get? q = some stored → stored.id < c.nextId

theorem IsWellKept.insert (hc : c.IsWellKept) (q : String) (tree : Expr) :
    (c.insert q tree).2.IsWellKept ∧ c.nextId ≤ (c.insert q tree).2.nextId := by
  cases hget : c.get? q with
  | some stored =>
    rw [insert_of_get?_eq_some hget]
    exact ⟨hc, Nat.le_refl _⟩
  | none =>
    rw [insert_of_get?_eq_none hget]
    refine ⟨⟨Fields.nodup_names_insert hc.nodup _ _, fun other stored h => ?_⟩, Nat.le_succ _⟩
    rw [get?, Fields.lookup_insert] at h
    split at h
    · exact Option.some.inj h ▸ Nat.lt_succ_self _
    · exact Nat.lt_succ_of_lt (hc.id_lt other stored h)

theorem IsWellKept.ask (hc : c.IsWellKept) (access : Access) :
    (c.ask access).2.IsWellKept ∧ c.nextId ≤ (c.ask access).2.nextId := by
  obtain h | ⟨q, tree, h⟩ | h := c.ask_cases access
  · rw [h]
    exact ⟨hc, Nat.le_refl _⟩
  · rw [h]
    exact hc.insert q tree
  · rw [h]
    exact ⟨⟨List.nodup_nil, fun q stored h => nomatch h⟩, Nat.le_refl _⟩

theorem IsWellKept.askAll (hc : c.IsWellKept) (history : List Access) :
    (c.askAll history).IsWellKept ∧ c.nextId ≤ (c.askAll history).nextId := by
  induction history generalizing c with
  | nil => exact ⟨hc, Nat.le_refl _⟩
  | cons access rest ih =>
    obtain ⟨hnext, hle⟩ := hc.ask access
    obtain ⟨hrest, hle'⟩ := ih hnext
    exact ⟨hrest, Nat.le_trans hle hle'⟩

theorem isWellKept_empty : empty.IsWellKept := ⟨List.nodup_nil, fun _ _ h => nomatch h⟩

/-- A stored tree that is the answer to some request of a history. -/
def IsAnswered (history : List Access) (stored : StoredTree) : Prop :=
  ∃ before access later, history = before ++ access :: later ∧
    ((empty.askAll before).ask access).1 = some stored

/-- An answer has a number from before. -/
theorem IsAnswered.id_lt {history : List Access} (h : IsAnswered history stored) :
    stored.id < (empty.askAll history).nextId := by
  obtain ⟨before, access, later, rfl, hanswer⟩ := h
  obtain ⟨hbefore, -⟩ := isWellKept_empty.askAll before
  obtain ⟨hask, -⟩ := hbefore.ask access
  have hlater := (hask.askAll later).2
  have hstored : stored.id < ((empty.askAll before).ask access).2.nextId := by
    cases hq : access.query? with
    | some q => exact hask.id_lt q stored (get?_of_ask_eq_some hanswer hq)
    | none =>
      cases access with
      | clear => exact nomatch hanswer
      | _ => exact nomatch hq
  rw [askAll, List.foldl_append]
  exact Nat.lt_of_lt_of_le hstored hlater

/-- A stored tree that was no answer in a history. -/
def IsNew (history : List Access) (stored : StoredTree) : Prop :=
  ∀ earlier, IsAnswered history earlier → earlier.id ≠ stored.id

/-- A text without a tree gets the one that is brought, as a thing of its own. -/
theorem isNew_insert {history : List Access} (h : (empty.askAll history).get? q = none)
    (tree : Expr) : ((empty.askAll history).insert q tree).1.tree = tree ∧
      IsNew history ((empty.askAll history).insert q tree).1 := by
  rw [insert_of_get?_eq_none h]
  exact ⟨rfl, fun earlier hearlier => Nat.ne_of_lt hearlier.id_lt⟩

/-! ### The first tree wins -/

/-- What a history has made of a store, and what later requests make of it. -/
structure KeepsFirst (history : List Access) (c : QueryCache) : Prop where
  /-- Once a text has a tree, this is the answer to all requests about it until all are
  forgotten. -/
  stays : ∀ q first stored, first.query? = some q → (c.ask first).1 = some stored →
    ∀ between : List Access, (∀ access ∈ between, access.isClear = false) →
      ∀ later : Access, later.query? = some q →
        (((c.ask first).2.askAll between).ask later).1 = some stored
  inserted : ∀ q tree, c.get? q = none → ∃ stored,
    (c.ask (.insert q tree)).1 = some stored ∧ stored.tree = tree ∧ IsNew history stored
  compiled : ∀ q tree, c.get? q = none → Expr.parse q = .ok tree → ∃ stored,
    (c.ask (.compile q)).1 = some stored ∧ stored.tree = tree ∧ IsNew history stored
  /-- Compiling fails exactly if there is no tree and parsing fails, and then stores nothing. -/
  failed : ∀ q e c', c.compile q = (.error e, c') ↔
    c.get? q = none ∧ Expr.parse q = .error e ∧ c = c'
  /-- Requests about other texts do not show. -/
  others : ∀ q later, (∀ access ∈ later, access.isClear = false ∧ access.query? ≠ some q) →
    (c.askAll later).get? q = c.get? q
  /-- The texts with a tree are those for which one was stored since all were last forgotten. -/
  texts : ∀ q, c.get? q = none ↔ q ∉ storedSince history
  size : c.size = (storedSince history).toFinset.card

theorem keepsFirst_askAll (history : List Access) :
    KeepsFirst history (empty.askAll history) where
  stays q first stored hfirst hanswer between hbetween later hlater := by
    have hget := get?_of_ask_eq_some hanswer hfirst
    rw [ask_of_get?_eq_some (get?_askAll hbetween hget) hlater]
  inserted q tree hget := ⟨_, rfl, isNew_insert hget tree⟩
  compiled q tree hget hparse := by
    refine ⟨((empty.askAll history).insert q tree).1, ?_, isNew_insert hget tree⟩
    rw [ask, compile_of_get?_eq_none hget hparse]
    rfl
  failed _ _ _ := compile_eq_error_iff
  others _ _ := get?_askAll_of_ne
  texts q := by rw [get?_eq_none_iff, mem_names_askAll_iff]
  size := by
    obtain ⟨hkept, -⟩ := isWellKept_empty.askAll history
    have hsame : (Fields.names (empty.askAll history).entries).toFinset =
        (storedSince history).toFinset := by
      ext q
      rw [List.mem_toFinset, List.mem_toFinset, mem_names_askAll_iff]
    rw [← hsame, List.toFinset_card_of_nodup hkept.nodup, QueryCache.size, Fields.names,
      List.length_map]

/-- After a clear, `x` is stored for a text that it is not the tree of, and compiling this text
gives it again. -/
theorem compile_after_foreign_insert :
    ∃ stored, stored.tree = .variable "x" ∧
      (((((empty.askAll [.compile "a", .clear]).ask (.insert "a" (.variable "x"))).2.askAll
        [.compile "b", .insert "a" (.variable "y"), .compile ")"])).ask (.compile "a")).1 =
          some stored := by
  have hkeeps := keepsFirst_askAll [.compile "a", .clear]
  obtain ⟨stored, hanswer, htree, -⟩ := hkeeps.inserted "a" (.variable "x") rfl
  refine ⟨stored, htree, hkeeps.stays "a" _ stored rfl hanswer _ ?_ _ rfl⟩
  decide

end QueryCache

end PathQuery
