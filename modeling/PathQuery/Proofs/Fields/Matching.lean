/-
Maps compared member by member.

Two maps match if they have equally many members and each member of the first has a related one
under its name in the second.  With distinct names nothing is left over in the second map, so a
comparison that walks one side only says as much about the other:

* **`Fields.Matches.perm_names`** — maps that match have the same names;
* **`Fields.Matches.flip`** — so they match the other way round;
* **`Fields.Matches.trans`** — and along a third map;
* **`Fields.matches_left_congr`, `Fields.matches_right_congr`** — in whatever order the members are.
-/
import Mathlib.Data.List.Perm.Subperm
import PathQuery.Proofs.Fields

namespace PathQuery.Fields

variable {α : Type} {R S : α → α → Prop} {as bs cs : List (String × α)}

theorem mem_of_lookup {name : String} {v : α} (h : as.lookup name = some v) : (name, v) ∈ as := by
  obtain ⟨before, behind, rfl, -⟩ := List.lookup_eq_some_iff.1 h
  exact List.mem_append_right _ List.mem_cons_self

/-- Where names are distinct, look-up does not depend on the order of the members. -/
theorem lookup_perm (hnames : (names as).Nodup) (h : as.Perm bs) (name : String) :
    as.lookup name = bs.lookup name := by
  have hnames' : (names bs).Nodup := (h.map Prod.fst).nodup_iff.1 hnames
  refine Option.ext fun v => ⟨fun hv => ?_, fun hv => ?_⟩
  · exact lookup_of_mem hnames' (h.mem_iff.1 (mem_of_lookup hv))
  · exact lookup_of_mem hnames (h.mem_iff.2 (mem_of_lookup hv))

/-- As many members, and for each of `as` a related one under its name in `bs`. -/
structure Matches (R : α → α → Prop) (as bs : List (String × α)) : Prop where
  length_eq : as.length = bs.length
  found : ∀ field ∈ as, ∃ b, bs.lookup field.1 = some b ∧ R field.2 b

namespace Matches

theorem imp (h : Matches R as bs)
    (himp : ∀ a ∈ as.map Prod.snd, ∀ b ∈ bs.map Prod.snd, R a b → S a b) : Matches S as bs where
  length_eq := h.length_eq
  found := fun field hfield => by
    obtain ⟨b, hlookup, hb⟩ := h.found field hfield
    have hmem : b ∈ bs.map Prod.snd := List.mem_map_of_mem (mem_of_lookup hlookup)
    exact ⟨b, hlookup, himp _ (List.mem_map_of_mem hfield) _ hmem hb⟩

/-- The names of the first map are among those of the second, and there is no room for more. -/
theorem perm_names (h : Matches R as bs) (hnames : (names as).Nodup) :
    (names as).Perm (names bs) := by
  have hsubset : names as ⊆ names bs := by
    intro name hname
    obtain ⟨field, hfield, rfl⟩ := List.mem_map.1 hname
    obtain ⟨b, hlookup, -⟩ := h.found field hfield
    exact List.mem_map.2 ⟨_, mem_of_lookup hlookup, rfl⟩
  have hlength : (names bs).length = (names as).length := by
    rw [names, names, List.length_map, List.length_map, h.length_eq]
  exact (List.subperm_of_subset hnames hsubset).perm_of_length_le (Nat.le_of_eq hlength)

protected theorem flip (h : Matches R as bs) (hnames : (names as).Nodup) :
    Matches (fun b a => R a b) bs as where
  length_eq := h.length_eq.symm
  found := fun field hfield => by
    have hperm := h.perm_names hnames
    -- The name is in the first map too, where its member found `field` itself.
    have hname : field.1 ∈ names as := hperm.mem_iff.2 (List.mem_map_of_mem hfield)
    obtain ⟨own, hown, hsame⟩ := List.mem_map.1 hname
    obtain ⟨b, hlookup, hb⟩ := h.found own hown
    rw [hsame, lookup_of_mem (hperm.nodup_iff.1 hnames) hfield, Option.some_inj] at hlookup
    refine ⟨own.2, ?_, hlookup ▸ hb⟩
    rw [← hsame]
    exact lookup_of_mem hnames hown

theorem trans {T : α → α → Prop} (hab : Matches R as bs) (hbc : Matches S bs cs)
    (h : ∀ a ∈ as.map Prod.snd, ∀ b c, R a b → S b c → T a c) : Matches T as cs where
  length_eq := hab.length_eq.trans hbc.length_eq
  found := fun field hfield => by
    obtain ⟨b, hlookup, hb⟩ := hab.found field hfield
    obtain ⟨c, hlookup', hc⟩ := hbc.found _ (mem_of_lookup hlookup)
    exact ⟨c, hlookup', h _ (List.mem_map_of_mem hfield) b c hb hc⟩

end Matches

/-- A map with distinct names matches itself if its values do. -/
theorem matches_self_iff (hnames : (names as).Nodup) :
    Matches R as as ↔ ∀ a ∈ as.map Prod.snd, R a a := by
  constructor
  · intro h a ha
    obtain ⟨field, hfield, rfl⟩ := List.mem_map.1 ha
    obtain ⟨b, hlookup, hb⟩ := h.found field hfield
    rw [lookup_of_mem hnames hfield, Option.some_inj] at hlookup
    exact hlookup ▸ hb
  · intro h
    exact ⟨rfl, fun field hfield =>
      ⟨field.2, lookup_of_mem hnames hfield, h _ (List.mem_map_of_mem hfield)⟩⟩

theorem matches_left_congr (h : as.Perm bs) : Matches R as cs ↔ Matches R bs cs := by
  constructor
  · exact fun hm => ⟨h.length_eq ▸ hm.length_eq, fun field hf => hm.found field (h.mem_iff.2 hf)⟩
  · exact fun hm =>
      ⟨h.length_eq ▸ hm.length_eq, fun field hf => hm.found field (h.mem_iff.1 hf)⟩

theorem matches_right_congr (hnames : (names as).Nodup) (h : as.Perm bs) :
    Matches R cs as ↔ Matches R cs bs := by
  constructor
  · exact fun hm => ⟨hm.length_eq.trans h.length_eq, fun field hf => by
      rw [← lookup_perm hnames h]
      exact hm.found field hf⟩
  · exact fun hm => ⟨hm.length_eq.trans h.length_eq.symm, fun field hf => by
      rw [lookup_perm hnames h]
      exact hm.found field hf⟩

end PathQuery.Fields
