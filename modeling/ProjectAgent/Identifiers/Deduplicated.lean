/-
`_deduplicate` builds a dictionary: the keys where they are first seen, and of
each an identifier of the strongest source among those of that key.
-/
import ProjectAgent.Identifiers.Extractor
import ProjectAgent.Lib.FirstSeen
import ProjectAgent.Lib.Ranking

namespace ProjectAgent.Identifiers

variable {seen byKey : List ExtractedIdentifier}

/-- A dictionary of what has been seen: its keys where they are first seen, and of each one of the
strongest source. -/
structure Strongest (seen byKey : List ExtractedIdentifier) : Prop where
  keys : byKey.map (·.key) = (seen.map (·.key)).eraseDups
  mem : ∀ entry ∈ byKey, entry ∈ seen
  strongest : ∀ entry ∈ byKey, ∀ other ∈ seen, other.key = entry.key →
    sourceRank other.source ≤ sourceRank entry.source

theorem Strongest.nodup (h : Strongest seen byKey) : (byKey.map (·.key)).Nodup := by
  rw [h.keys]
  exact Interleave.Ranking.nodup_eraseDups _

theorem Strongest.add (h : Strongest seen byKey) (item : ExtractedIdentifier) :
    Strongest (seen ++ [item]) (addIdentifier byKey item) := by
  have hcontains : (seen.map (·.key)).contains item.key = byKey.any (·.key == item.key) := by
    rw [Bool.eq_iff_iff, List.contains_iff_mem, ← List.mem_eraseDups, ← h.keys, List.mem_map,
      List.any_eq_true]
    simp only [beq_iff_eq]
  have hkeys : ((seen ++ [item]).map (·.key)).eraseDups = if byKey.any (·.key == item.key) then
    byKey.map (·.key)
      else byKey.map (·.key) ++ [item.key] := by
    rw [List.map_append, List.map_singleton, FirstSeen.eraseDups_concat, hcontains, ← h.keys]
  unfold addIdentifier
  split
  · next hany =>
    have hkey (previous : ExtractedIdentifier) :
        (if previous.key = item.key ∧ sourceRank previous.source < sourceRank item.source then item
          else previous).key =
          previous.key := by
      split
      · next h => exact h.1.symm
      · rfl
    constructor
    · rw [hkeys, if_pos hany, List.map_map]
      exact List.map_congr_left fun previous _ => hkey previous
    · intro entry hentry
      obtain ⟨previous, hprevious, rfl⟩ := List.mem_map.mp hentry
      split
      · exact List.mem_append_right _ List.mem_cons_self
      · exact List.mem_append_left _ (h.mem previous hprevious)
    · intro entry hentry other hother hsame
      obtain ⟨previous, hprevious, rfl⟩ := List.mem_map.mp hentry
      rw [hkey] at hsame
      have hseen (hother : other ∈ seen) := h.strongest previous hprevious other hother hsame
      rcases List.mem_append.mp hother with hother | hother
      · split
        · next hstronger => exact (hseen hother).trans hstronger.2.le
        · exact hseen hother
      · obtain rfl := List.mem_singleton.mp hother
        split
        · exact le_rfl
        · next hnot => exact not_lt.mp fun hlt => hnot ⟨hsame.symm, hlt⟩
  · next hany =>
    constructor
    · rw [hkeys, if_neg hany, List.map_append, List.map_singleton]
    · intro entry hentry
      rcases List.mem_append.mp hentry with hentry | hentry
      · exact List.mem_append_left _ (h.mem entry hentry)
      · exact List.mem_append_right _ hentry
    · intro entry hentry other hother hsame
      have hnew {entry : ExtractedIdentifier} (hentry : entry ∈ byKey) : entry.key ≠ item.key :=
        fun heq =>
        hany (List.any_eq_true.mpr ⟨entry, hentry, beq_iff_eq.mpr heq⟩)
      rcases List.mem_append.mp hentry with hentry | hentry
      · rcases List.mem_append.mp hother with hother | hother
        · exact h.strongest entry hentry other hother hsame
        · rw [List.mem_singleton.mp hother] at hsame
          exact absurd hsame.symm (hnew hentry)
      · obtain rfl := List.mem_singleton.mp hentry
        rcases List.mem_append.mp hother with hother | hother
        · have hkey : entry.key ∈ byKey.map (·.key) := by
            rw [h.keys, List.mem_eraseDups, ← hsame]
            exact List.mem_map_of_mem hother
          obtain ⟨previous, hprevious, heq⟩ := List.mem_map.mp hkey
          exact absurd heq (hnew hprevious)
        · rw [List.mem_singleton.mp hother]

theorem Strongest.deduplicate (values : List ExtractedIdentifier) :
    Strongest values (deduplicate values) := by
  have hnone : Strongest [] [] :=
    ⟨rfl, fun _ h => absurd h List.not_mem_nil, fun _ h => absurd h List.not_mem_nil⟩
  have hfold (values : List ExtractedIdentifier) {seen byKey : List ExtractedIdentifier}
    (h : Strongest seen byKey) :
      Strongest (seen ++ values) (values.foldl addIdentifier byKey) := by
    induction values generalizing seen byKey with
    | nil =>
      rw [List.append_nil]
      exact h
    | cons item values ih =>
      rw [List.append_cons]
      exact ih (h.add item)
  exact hfold values hnone

theorem mem_keys_deduplicate {values : List ExtractedIdentifier} {key : IdentifierType × String} :
    (∃ entry ∈ deduplicate values, entry.key = key) ↔ ∃ item ∈ values, item.key = key := by
  rw [← List.mem_map, ← List.mem_map, (Strongest.deduplicate values).keys, List.mem_eraseDups]

end ProjectAgent.Identifiers
