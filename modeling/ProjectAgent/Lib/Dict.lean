/-
Dictionaries keyed by strings, as finite maps: two of them are equal exactly if
they give the same for every key, in whatever order the keys were put in.
-/
import Mathlib.Data.Finmap

abbrev Dict (α : Type) := Finmap fun _ : String => α

namespace Dict

variable {α β : Type}

/-- Of two entries with one key, the first. -/
def ofList (entries : List (String × α)) : Dict α :=
  (entries.map fun e => Sigma.mk e.1 e.2).toFinmap

theorem lookup_ofList (entries : List (String × α)) (key : String) :
    (ofList entries).lookup key = entries.lookup key := by
  unfold ofList
  rw [Finmap.dlookup_list_toFinmap]
  induction entries with
  | nil => rfl
  | cons e entries ih =>
    rw [List.map_cons, List.lookup_cons]
    by_cases h : key = e.1
    · subst h
      rw [List.dlookup_cons_eq, beq_self_eq_true]
    · rw [List.dlookup_cons_ne _ _ h, ih, beq_false_of_ne h]

theorem lookup_ofList_of_mem {entries : List (String × α)} (h : (entries.map Prod.fst).Nodup)
    {key : String} {a : α} (hmem : (key, a) ∈ entries) : (ofList entries).lookup key = some a := by
  rw [lookup_ofList]
  induction entries with
  | nil => exact absurd hmem List.not_mem_nil
  | cons entry entries ih =>
    rw [List.map_cons, List.nodup_cons] at h
    rw [List.lookup_cons]
    rcases List.mem_cons.mp hmem with rfl | hmem
    · rw [beq_self_eq_true]
    · have hne : key ≠ entry.1 := by
        rintro rfl
        exact h.1 (List.mem_map.mpr ⟨_, hmem, rfl⟩)
      rw [beq_false_of_ne hne]
      exact ih h.2 hmem

theorem keys_ofList (entries : List (String × α)) :
    (ofList entries).keys = (entries.map Prod.fst).toFinset := by
  ext key
  rw [Finmap.mem_keys, ← Finmap.lookup_isSome, lookup_ofList, List.lookup_isSome_iff,
    List.mem_toFinset, List.mem_map]
  constructor
  · rintro ⟨entry, hmem, hkey⟩
    exact ⟨entry, hmem, (eq_of_beq hkey).symm⟩
  · rintro ⟨entry, hmem, rfl⟩
    exact ⟨entry, hmem, beq_self_eq_true _⟩

/-- In whatever order the entries of different keys are. -/
theorem lookup_perm {entries entries' : List (String × α)} (h : entries.Perm entries')
    (hnodup : (entries.map Prod.fst).Nodup) (key : String) :
    entries.lookup key = entries'.lookup key := by
  induction h with
  | nil => rfl
  | cons entry _ ih =>
    rw [List.map_cons, List.nodup_cons] at hnodup
    rw [List.lookup_cons, List.lookup_cons, ih hnodup.2]
  | swap first second entries =>
    rw [List.map_cons, List.map_cons, List.nodup_cons] at hnodup
    rw [List.lookup_cons, List.lookup_cons, List.lookup_cons, List.lookup_cons]
    by_cases hfirst : key = first.1
    · have hsecond : key ≠ second.1 := by
        rintro rfl
        exact hnodup.1 (hfirst ▸ List.mem_cons_self)
      rw [beq_false_of_ne hsecond]
    · rw [beq_false_of_ne hfirst]
  | trans hperm _ ih ih' => rw [ih hnodup, ih' ((hperm.map _).nodup_iff.mp hnodup)]

/-- A comprehension over the entries. -/
def filterMap (f : String → α → Option β) (d : Dict α) : Dict β where
  entries := d.entries.filterMap fun e => (f e.1 e.2).map (Sigma.mk e.1)
  nodupKeys := by
    obtain ⟨entries, hnodup⟩ := d
    induction entries using Quotient.inductionOn with
    | h entries =>
      have hpairs := List.nodupKeys_iff_pairwise.mp (Multiset.coe_nodupKeys.mp hnodup)
      refine Multiset.coe_nodupKeys.mpr (List.nodupKeys_iff_pairwise.mpr ?_)
      rw [List.pairwise_filterMap]
      refine hpairs.imp fun {a b} hne a' ha b' hb => ?_
      obtain ⟨_, -, rfl⟩ := Option.map_eq_some_iff.mp ha
      obtain ⟨_, -, rfl⟩ := Option.map_eq_some_iff.mp hb
      exact hne

@[simp] theorem lookup_filterMap (f : String → α → Option β) (d : Dict α) (key : String) :
    (filterMap f d).lookup key = (d.lookup key).bind (f key) := by
  refine Option.ext fun b => ?_
  rw [Finmap.lookup_eq_some_iff, Option.bind_eq_some_iff]
  constructor
  · intro hmem
    obtain ⟨e, he, heq⟩ := (Multiset.mem_filterMap _ _).mp hmem
    obtain ⟨b', hb, heq⟩ := Option.map_eq_some_iff.mp heq
    cases heq
    exact ⟨e.2, Finmap.lookup_eq_some_iff.mpr he, hb⟩
  · rintro ⟨a, ha, hb⟩
    exact (Multiset.mem_filterMap _ _).mpr ⟨⟨key, a⟩,
      Finmap.lookup_eq_some_iff.mp ha, by rw [hb]; rfl⟩

def map (f : α → β) (d : Dict α) : Dict β := filterMap (fun _ a => some (f a)) d

@[simp] theorem lookup_map (f : α → β) (d : Dict α) (key : String) :
    (map f d).lookup key = (d.lookup key).map f := by
  unfold map
  rw [lookup_filterMap]
  cases Finmap.lookup key d <;> rfl

end Dict
