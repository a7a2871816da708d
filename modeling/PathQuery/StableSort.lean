/-
Stable sorting by a comparison, which need not be an order.

Short lists are sorted by insertion.  Longer ones are cut into runs, which are merged along a tree
whose shape depends on their places only; a run is in order as it stands, or is sorted when it is
cut off or when it is merged:

* **`StableSort.insertAll`** — insertion, each element moving left past those it is less than;
* **`StableSort.mergeFromEnds`** — two halves merged from both ends, which gives up if the ends do
  not meet;
* **`StableSort.sortShort`** — lists of at most 32 elements, by halves;
* **`StableSort.quicksort`** — longer ones, by pivots, up to a number of them;
* **`StableSort.nextRun`, `StableSort.mergeRuns`** — runs cut off and merged;
* **`StableSort.sort`** — all of it.

Design notes: if the comparison is that of ranks, the result is the list in the order of its ranks.
If it is not, elements may come out in any order, or none come out: `none` is the answer of a sort
that has noticed it.  So which elements are compared, and in which places, is part of the
definitions.
-/
namespace PathQuery.StableSort

/-! ### Insertion -/

section

variable {α : Type} (less : α → α → Bool)

/-- Puts an element behind `sorted`, the elements sorted so far with the last one first: it moves
past those that it is less than. -/
def insertFromBehind (a : α) : List α → List α
  | [] => [a]
  | last :: sorted =>
    if less a last then last :: insertFromBehind a sorted else a :: last :: sorted

def insertLast (sorted : List α) (a : α) : List α :=
  (insertFromBehind less a sorted.reverse).reverse

/-- Elements put behind sorted ones, one after the other. -/
def insertAll (sorted as : List α) : List α := as.foldl (insertLast less) sorted

/-! ### Merging -/

/-- Two sorted lists as one, merged from the front. -/
def mergeUp (left right : List α) : List α :=
  left.merge right fun l r => !less r l

/-- Two sorted lists as one, merged from behind. -/
def mergeDown (left right : List α) : List α :=
  (right.reverse.merge left.reverse fun r l => !less r l).reverse

/-- Two sorted lists as one, merged from the end of the shorter one. -/
def merge (left right : List α) : List α :=
  if left.length ≤ right.length then mergeUp less left right else mergeDown less left right

/-- The comparison of elements that are marked by the half they are from. -/
def markedLess (a b : α × Bool) : Bool := less a.1 b.1

/-- The element between what is merged from the front of two halves and what is merged from behind,
if `right` is longer. -/
def between (left right front behind : List (α × Bool)) : Option (α × Bool) :=
  if left.length = right.length then none
  else if (front ++ behind).countP (·.2) < left.length then left[front.countP (·.2)]?
  else right[front.countP (!·.2)]?

/-- Both ends as one list, if all of `left` is in it. -/
def meet (left right front behind : List (α × Bool)) : Option (List (α × Bool)) :=
  let merged := front ++ (between left right front behind).toList ++ behind
  if merged.countP (·.2) = left.length then some merged else none

/-- Two sorted halves as one, merged in as many steps from the front as from behind. -/
def mergeFromEnds (left right : List α) : Option (List α) :=
  let markedLeft := left.map (·, true)
  let markedRight := right.map (·, false)
  let front := (mergeUp (markedLess less) markedLeft markedRight).take left.length
  let behind := (mergeDown (markedLess less) markedLeft markedRight).drop right.length
  (meet markedLeft markedRight front behind).map (·.map Prod.fst)

/-! ### Short lists -/

def sortTwo (a b : α) : α × α := if less b a then (b, a) else (a, b)

/-- Two pairs in order as four elements in order, by at most three comparisons. -/
def mergePairs (a b c d : α) : List α :=
  -- The first and the last one, and between them the other two in the order of their places.
  match less c a, less d b with
  | false, false => let (lower, upper) := sortTwo less b c; [a, lower, upper, d]
  | false, true => let (lower, upper) := sortTwo less c d; [a, lower, upper, b]
  | true, false => let (lower, upper) := sortTwo less a b; [c, lower, upper, d]
  | true, true => let (lower, upper) := sortTwo less a d; [c, lower, upper, b]

def sortFour (p q r s : α) : List α :=
  let first := sortTwo less p q
  let second := sortTwo less r s
  mergePairs less first.1 first.2 second.1 second.2

/-- One half of a short list, where the list is long enough with its first four put in order at
once. -/
def sortHalf (byFours : Bool) : List α → List α
  | p :: q :: r :: s :: as =>
    if byFours then insertAll less (sortFour less p q r s) as
    else insertAll less [] (p :: q :: r :: s :: as)
  | as => insertAll less [] as

def shortLength : Nat := 32

/-- A list of at most `shortLength` elements in order. -/
def sortShort (as : List α) : Option (List α) :=
  if as.length < 2 then some as
  else
    let byFours := 8 ≤ as.length
    mergeFromEnds less (sortHalf less byFours (as.take (as.length / 2)))
      (sortHalf less byFours (as.drop (as.length / 2)))

/-! ### Runs -/

/-- A part of the list, in order or to be sorted later. -/
structure Run (α : Type) where
  items : List α
  isSorted : Bool

/-- How many elements from the front descend, each less than the one before it, or how many do
not. -/
def runLength (descends : Bool) : List α → Nat
  | a :: b :: as => if less b a == descends then runLength descends (b :: as) + 1 else 1
  | as => as.length

/-- Whether a list begins with an element that is less than the one before it. -/
def descends : List α → Bool
  | a :: b :: _ => less b a
  | _ => false

/-- How many elements the run at the front of a list has: `minLength` or more that are in order, or
in the order opposite to it; else as many as a short list has, if `eager`, or `minLength`. -/
def nextLength (minLength : Nat) (eager : Bool) (as : List α) : Nat :=
  let length := runLength less (descends less as) as
  if minLength ≤ length then length else if eager then shortLength else minLength

/-- The run at the front of a list. -/
def nextRun (minLength : Nat) (eager : Bool) (as : List α) : Option (Run α) :=
  let length := nextLength less minLength eager as
  let items := as.take length
  if minLength ≤ runLength less (descends less as) as then
    some ⟨if descends less as then items.reverse else items, true⟩
  else if eager then (sortShort less items).map (⟨·, true⟩)
  else some ⟨items, false⟩

theorem runLength_pos (descends : Bool) {as : List α} (h : as ≠ []) :
    0 < runLength less descends as := by
  match as with
  | [a] => exact Nat.one_pos
  | a :: b :: as =>
    rw [runLength]
    split <;> omega

theorem nextLength_pos (minLength : Nat) (eager : Bool) {as : List α} (h : as ≠ []) :
    0 < nextLength less minLength eager as := by
  have hpos := runLength_pos less (descends less as) h
  rw [nextLength]
  split
  · exact hpos
  · split
    · decide
    · omega

/-- A list cut into runs. -/
def runs (minLength : Nat) (eager : Bool) (as : List α) : Option (List (Run α)) :=
  if _ : as = [] then some []
  else do
    let run ← nextRun less minLength eager as
    return run :: (← runs minLength eager (as.drop (nextLength less minLength eager as)))
termination_by as.length
decreasing_by
  have hpos := nextLength_pos less minLength eager ‹_›
  have hlength := List.length_pos_iff.2 ‹_›
  rw [List.length_drop]
  omega

/-! ### The tree of merges -/

/-- How deep in the tree two runs are merged, the first one of which begins at `left` and the second
one at `mid`, to end before `right`: the number of bits in which their middles agree, on a scale of
`2 ^ 62` to the length of the list. -/
def mergeDepth (length left mid right : Nat) : Nat :=
  let scale := ((1 <<< 62) + length - 1) / length
  63 - ((scale * (left + mid)) ^^^ (scale * (mid + right))).log2

section

variable (sortItems : List α → Option (List α)) (scratch : Nat)

/-- The elements of a run in order. -/
def Run.inOrder (run : Run α) : Option (List α) :=
  if run.isSorted then some run.items else sortItems run.items

/-- Two runs as one.  As long as neither is in order and both fit into `scratch` elements they stay
as they are. -/
def joinRuns (left right : Run α) : Option (Run α) :=
  if left.isSorted || right.isSorted || scratch < left.items.length + right.items.length then do
    return ⟨merge less (← left.inOrder sortItems) (← right.inOrder sortItems), true⟩
  else some ⟨left.items ++ right.items, false⟩

/-- Joins a run to those before it that are at least as deep in the tree as `depth`. -/
def joinDeeper (depth : Nat) : List (Run α × Nat) → Run α → Option (List (Run α × Nat) × Run α)
  | [], run => some ([], run)
  | (last, lastDepth) :: earlier, run =>
    if depth ≤ lastDepth then do
      joinDeeper depth earlier (← joinRuns less sortItems scratch last run)
    else some ((last, lastDepth) :: earlier, run)

/-- Joins runs of a list of `length` elements to one, given those before `place` with the depths at
which they wait, the last one first. -/
def mergeRuns (length : Nat) (place : Nat) (earlier : List (Run α × Nat)) (last : Run α) :
    List (Run α) → Option (Run α)
  | [] => (joinDeeper less sortItems scratch 0 earlier last).map (·.2)
  | next :: later => do
    let depth := mergeDepth length (place - last.items.length) place (place + next.items.length)
    let (earlier, last) ← joinDeeper less sortItems scratch depth earlier last
    mergeRuns length (place + next.items.length) ((last, depth) :: earlier) next later

end

/-- The length from which a part in order is taken as a run: half of a list, but not more than 64;
about the square root for long lists. -/
def minRunLength (length : Nat) : Nat :=
  if length ≤ 4096 then min (length - length / 2) 64
  else
    let shift := (1 + length.log2) / 2
    ((1 <<< shift) + (length >>> shift)) / 2

/-- Sorts by runs, with `sortItems` for those that are not in order. -/
def sortByRuns (sortItems : List α → Option (List α)) (eager : Bool) (scratch : Nat)
    (as : List α) : Option (List α) := do
  match ← runs less (minRunLength as.length) eager as with
  | [] => return []
  | first :: later =>
    let last ← mergeRuns less sortItems scratch as.length first.items.length [] first later
    last.inOrder sortItems

/-! ### Pivots -/

/-- The place of the median of three elements, given by their places. -/
def median (as : Array α) (a b c : Nat) : Nat :=
  let isLess (i j : Nat) : Bool := (as[i]?.bind fun x => as[j]?.map (less x)).getD false
  if isLess a b == isLess a c then
    if isLess b c != isLess a b then c else b
  else a

/-- The place of a median of medians, from the `n` elements behind each of three places. -/
def medianFrom (as : Array α) (n a b c : Nat) : Nat :=
  if 8 ≤ n then
    let part := fun i => medianFrom as (n / 8) i (i + n / 8 * 4) (i + n / 8 * 7)
    median less as (part a) (part b) (part c)
  else median less as a b c
termination_by n
decreasing_by all_goals omega

/-- The place of the pivot of a list. -/
def pivotPlace (as : List α) : Nat :=
  let eighth := as.length / 8
  medianFrom less as.toArray eighth 0 (eighth * 4) (eighth * 7)

/-- Elements in order, by as many pivots as `limit` allows and then by runs, all of them in order
from the start.  No element is less than `ancestor`, a pivot that these elements were once
behind. -/
def quicksort (scratch : Nat) : Nat → Option α → List α → Option (List α)
  | 0, _, as =>
    if as.length ≤ shortLength then sortShort less as
    else sortByRuns less (fun items => some (insertAll less [] items)) true scratch as
  | limit + 1, ancestor, as =>
    if as.length ≤ shortLength then sortShort less as
    else do
      let place := pivotPlace less as
      let pivot ← as[place]?
      let before := as.take place
      let behind := as.drop (place + 1)
      let smaller := (before ++ behind).filter (less · pivot)
      let isAncestor := ancestor.any fun ancestor => !less ancestor pivot
      if isAncestor || smaller.isEmpty then
        let rest ← quicksort scratch limit none ((before ++ behind).filter (less pivot ·))
        return before.filter (!less pivot ·) ++ pivot :: behind.filter (!less pivot ·) ++ rest
      else
        let others := before.filter (!less · pivot) ++ pivot :: behind.filter (!less · pivot)
        return (← quicksort scratch limit ancestor smaller) ++
          (← quicksort scratch limit (some pivot) others)

/-! ### Sorting -/

/-- How many of `length` elements there is room for beside the list. -/
def scratchLength (length : Nat) : Nat := max (length - length / 2) (min length 55555)

/-- A list in order, elements that are not less than each other in the order they had; none if the
comparison is found to be no order. -/
def sort (as : List α) : Option (List α) :=
  if as.length ≤ 20 then some (insertAll less [] as)
  else
    let scratch := scratchLength as.length
    let byPivots := fun items => quicksort less scratch (2 * items.length.log2) none items
    sortByRuns less byPivots (as.length ≤ 2 * shortLength) scratch as

end

end PathQuery.StableSort
