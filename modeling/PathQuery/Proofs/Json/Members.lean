/-
Members of documents, sorted by name.

* **`Json.perm_setMember`, `Json.sorted_setMember`** — a member with a new name is put in its place;
* **`Json.perm_sortMembers`, `Json.sorted_sortMembers`** — members with distinct names are sorted;
* **`Json.ofMembers_of_sorted`** — and stay as they are if they are sorted already.
-/
import Mathlib.Data.String.Basic
import PathQuery.Json
import PathQuery.Proofs.Fields

namespace PathQuery

/-- Whether names are in increasing order, each of them once. -/
abbrev Fields.Sorted (names : List String) : Prop := names.Pairwise (· < ·)

theorem Fields.Sorted.nodup {names : List String} (h : Sorted names) : names.Nodup :=
  h.imp fun hlt => ne_of_lt hlt

namespace Json

open Fields (names Sorted)

variable {name : String} {members : List (String × Json)}

/-- A member whose name is not there is added to the others. -/
theorem perm_setMember (value : Json) (h : name ∉ names members) :
    (setMember name value members).Perm ((name, value) :: members) := by
  induction members with
  | nil => exact .refl _
  | cons member rest ih =>
    obtain ⟨other, old⟩ := member
    obtain ⟨hne, hrest⟩ := not_or.1 (List.mem_cons.not.1 h)
    rw [setMember]
    split
    case h_1 => exact .refl _
    case h_2 heq => exact absurd (compare_eq_iff_eq.1 heq) hne
    case h_3 => exact ((ih hrest).cons _).trans (.swap _ _ _)

/-- It is put where the order wants it. -/
theorem sorted_setMember (value : Json) (hsorted : Sorted (names members))
    (h : name ∉ names members) : Sorted (names (setMember name value members)) := by
  induction members with
  | nil => exact List.pairwise_singleton _ _
  | cons member rest ih =>
    obtain ⟨other, old⟩ := member
    obtain ⟨hne, hrest⟩ := not_or.1 (List.mem_cons.not.1 h)
    obtain ⟨hfirst, hsorted'⟩ := List.pairwise_cons.1 hsorted
    rw [setMember]
    split
    case h_1 hlt =>
      have hlt : name < other := compare_lt_iff_lt.1 hlt
      refine List.pairwise_cons.2 ⟨fun later hlater => ?_, hsorted⟩
      obtain rfl | hlater := List.mem_cons.1 hlater
      · exact hlt
      · exact lt_trans hlt (hfirst later hlater)
    case h_2 heq => exact absurd (compare_eq_iff_eq.1 heq) hne
    case h_3 hgt =>
      have hgt : other < name := compare_gt_iff_gt.1 hgt
      refine List.pairwise_cons.2 ⟨fun later hlater => ?_, ih hsorted' hrest⟩
      -- Behind the first member come the new one and those that were there.
      have hmem := ((perm_setMember value hrest).map Prod.fst).mem_iff.1 hlater
      obtain rfl | hmem := List.mem_cons.1 hmem
      · exact hgt
      · exact hfirst later hmem

/-- Members in the order of their names. -/
def sortMembers (members : List (String × Json)) : List (String × Json) :=
  members.foldl (fun sorted (name, value) => setMember name value sorted) []

theorem ofMembers_eq (members : List (String × Json)) :
    ofMembers members = .object (sortMembers members) := rfl

/-- Members that are put behind each other into sorted ones. -/
theorem foldl_setMember (sorted : List (String × Json)) (hsorted : Sorted (names sorted))
    (h : (names (sorted ++ members)).Nodup) :
    (members.foldl (fun sorted (name, value) => setMember name value sorted) sorted).Perm
        (sorted ++ members) ∧
      Sorted (names
        (members.foldl (fun sorted (name, value) => setMember name value sorted) sorted)) := by
  induction members generalizing sorted with
  | nil => exact ⟨.of_eq (List.append_nil sorted).symm, hsorted⟩
  | cons member rest ih =>
    obtain ⟨name, value⟩ := member
    have hmiddle : (sorted ++ (name, value) :: rest).Perm ((name, value) :: (sorted ++ rest)) :=
      List.perm_middle
    have hcons := (hmiddle.map Prod.fst).nodup_iff.1 h
    have hname : name ∉ names sorted := fun hmem => (List.nodup_cons.1 hcons).1 <| by
      rw [List.map_append]
      exact List.mem_append_left _ hmem
    have hset := perm_setMember value hname
    have hnext : (setMember name value sorted ++ rest).Perm (sorted ++ (name, value) :: rest) :=
      (hset.append_right rest).trans hmiddle.symm
    obtain ⟨hperm, hsorted'⟩ := ih _ (sorted_setMember value hsorted hname)
      ((hnext.map Prod.fst).nodup_iff.2 h)
    exact ⟨hperm.trans hnext, hsorted'⟩

theorem perm_sortMembers (h : (names members).Nodup) : (sortMembers members).Perm members :=
  (foldl_setMember [] List.Pairwise.nil h).1

theorem sorted_sortMembers (h : (names members).Nodup) : Sorted (names (sortMembers members)) :=
  (foldl_setMember [] List.Pairwise.nil h).2

/-- Sorted members are the only sorted rearrangement of themselves. -/
theorem ofMembers_of_sorted (h : Sorted (names members)) : ofMembers members = .object members := by
  have hnodup : (names members).Nodup := Fields.Sorted.nodup h
  have hsorted : (sortMembers members).Pairwise fun a b => a.1 < b.1 :=
    List.pairwise_map.1 (sorted_sortMembers hnodup)
  have heq : sortMembers members = members :=
    (perm_sortMembers hnodup).eq_of_pairwise
      (fun a b _ _ hlt hgt => absurd (lt_trans hlt hgt) (lt_irrefl a.1)) hsorted
      (List.pairwise_map.1 h)
  rw [ofMembers_eq, heq]

end Json

end PathQuery
