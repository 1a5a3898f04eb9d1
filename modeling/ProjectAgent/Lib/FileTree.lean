/-
A file system as a tree of directories, files and links: what stands at each
path. Everything but the root stands in a directory, which creating, writing,
moving and removing keep. A path is the components below the root.
-/
import Mathlib.Data.List.Infix
import Mathlib.Logic.Function.Basic

namespace FileTree

abbrev Path := List String

abbrev Bytes := List UInt8

inductive Entry where
  | dir
  | file (data : Bytes)
  | link
deriving DecidableEq

structure Files where
  entry : Path → Option Entry
  root : entry [] = some .dir
  inside : ∀ {path name}, entry (path ++ [name]) ≠ none → entry path = some .dir

namespace Files

variable {files : Files} {path other : Path} {e : Entry} {data : Bytes}

theorem ext {files files' : Files} (h : ∀ path, files.entry path = files'.entry path) :
    files = files' := by
  have hentry : files.entry = files'.entry := funext h
  cases files
  cases files'
  cases hentry
  rfl

/-- Above what stands somewhere there are directories. -/
theorem above (h : files.entry (path ++ other) ≠ none) (hother : other ≠ []) :
    files.entry path = some .dir := by
  induction other using List.reverseRecOn with
  | nil => exact absurd rfl hother
  | append_singleton other name ih =>
    rw [← List.append_assoc] at h
    have hdir := files.inside h
    by_cases hnil : other = []
    · rwa [hnil, List.append_nil] at hdir
    · refine ih ?_ hnil
      rw [hdir]
      nofun

/-- Nothing stands below what is not a directory. -/
theorem none_below (h : files.entry path ≠ some .dir) (hother : other ≠ []) :
    files.entry (path ++ other) = none := by
  by_contra hne
  exact h (above hne hother)

theorem eq_none_of_prefix (h : files.entry path = none) (hpre : path <+: other) :
    files.entry other = none := by
  obtain ⟨rest, rfl⟩ := hpre
  by_cases hnil : rest = []
  · rwa [hnil, List.append_nil]
  · refine none_below ?_ hnil
    rw [h]
    nofun

/-- One directory, with these files in it. -/
def holding (dir : Path) (data : String → Option Bytes) : Files where
  entry path := if path <+: dir then some .dir
    else if path.dropLast = dir then (path.getLast?.bind data).map .file else none
  root := if_pos List.nil_prefix
  inside := fun {path name} hne => by
    refine if_pos ?_
    split at hne
    · next hpre => exact (List.prefix_append _ _).trans hpre
    · split at hne
      · next hdir => rw [← hdir, List.dropLast_concat]
      · exact absurd rfl hne

theorem holding_file {dir : Path} {held : String → Option Bytes} {name : String} :
    (holding dir held).entry (dir ++ [name]) = (held name).map .file := by
  have hlonger : ¬ dir ++ [name] <+: dir := by
    intro hpre
    have hlength := hpre.length_le
    rw [List.length_append, List.length_singleton] at hlength
    omega
  refine (if_neg hlonger).trans ((if_pos List.dropLast_concat).trans ?_)
  rw [List.getLast?_concat]
  rfl

/-! ## Changes -/

/-- Something new in a directory. -/
def create (files : Files) (path : Path) (e : Entry) : Files :=
  if h : files.entry path = none ∧ files.entry path.dropLast = some .dir then
    { entry := Function.update files.entry path (some e)
      root := by
        rw [Function.update_of_ne, files.root]
        rintro rfl
        exact absurd (files.root.symm.trans h.1) nofun
      inside := fun {above name} hne => by
        have hparent : files.entry above = some .dir := by
          by_cases heq : above ++ [name] = path
          · rw [← heq, List.dropLast_concat] at h
            exact h.2
          · rw [Function.update_of_ne heq] at hne
            exact files.inside hne
        rw [Function.update_of_ne, hparent]
        rintro rfl
        exact absurd (hparent.symm.trans h.1) nofun }
  else files

/-- Other data in a file. -/
def overwrite (files : Files) (path : Path) (data : Bytes) : Files :=
  match h : files.entry path with
  | some (.file _) =>
    { entry := Function.update files.entry path (some (.file data))
      root := by
        rw [Function.update_of_ne, files.root]
        rintro rfl
        exact absurd (files.root.symm.trans h) nofun
      inside := fun {above name} hne => by
        have hparent : files.entry above = some .dir := by
          by_cases heq : above ++ [name] = path
          · have hfile : files.entry (above ++ [name]) ≠ none := by
              rw [heq, h]
              nofun
            exact files.inside hfile
          · rw [Function.update_of_ne heq] at hne
            exact files.inside hne
        rw [Function.update_of_ne, hparent]
        rintro rfl
        exact absurd (hparent.symm.trans h) nofun }
  | _ => files

/-- Without what stands at a path and below it. -/
def remove (files : Files) (path : Path) : Files :=
  if h : path = [] then files
  else
    { entry := fun other => if path <+: other then none else files.entry other
      root := by rw [if_neg fun hpre => h (List.prefix_nil.mp hpre), files.root]
      inside := fun {above name} hne => by
        split at hne
        · exact absurd rfl hne
        · next hout =>
          rw [if_neg fun hpre => hout (hpre.trans (List.prefix_append _ _))]
          exact files.inside hne }

/-- A directory moved, with what stands in it, to where nothing is. -/
def move (files : Files) (source target : Path) : Files :=
  if h : files.entry source = some .dir ∧ source ≠ [] ∧ ¬ source <+: target ∧
    files.entry target = none ∧
      files.entry target.dropLast = some .dir then
    { entry := fun path =>
        if target <+: path then files.entry (source ++ path.drop target.length)
        else if source <+: path then none
        else files.entry path
      root := by
        have htarget : target ≠ [] := by
          rintro rfl
          exact absurd (files.root.symm.trans h.2.2.2.1) nofun
        rw [if_neg fun hpre => htarget (List.prefix_nil.mp hpre),
          if_neg fun hpre => h.2.1 (List.prefix_nil.mp hpre), files.root]
      inside := fun {above name} hne => by
        split at hne
        · next hbelow =>
          rcases List.prefix_concat_iff.mp hbelow with heq | hpre
          · have habove : above = target.dropLast := by rw [heq, List.dropLast_concat]
            have hshort : ¬ target <+: above := by
              intro hpre
              have hlength := hpre.length_le
              rw [heq, List.length_append, List.length_singleton] at hlength
              omega
            rw [if_neg hshort, if_neg, habove, h.2.2.2.2]
            exact fun hpre => h.2.2.1 (hpre.trans (heq ▸ List.prefix_append _ _))
          · rw [if_pos hpre]
            rw [List.drop_append_of_le_length hpre.length_le, ← List.append_assoc] at hne
            exact files.inside hne
        · next hout =>
          split at hne
          · exact absurd rfl hne
          · next hout' =>
            rw [if_neg fun hpre => hout (hpre.trans (List.prefix_append _ _)),
              if_neg fun hpre => hout' (hpre.trans (List.prefix_append _ _))]
            exact files.inside hne }
  else files

theorem create_entry (habsent : files.entry path = none)
    (hparent : files.entry path.dropLast = some .dir) :
    (files.create path e).entry = Function.update files.entry path (some e) := by
  unfold create
  rw [dif_pos ⟨habsent, hparent⟩]

theorem overwrite_entry {old : Bytes} (h : files.entry path = some (.file old)) :
    (files.overwrite path data).entry = Function.update files.entry path (some (.file data)) := by
  unfold overwrite
  split
  · rfl
  · next hno => exact absurd h (hno old)

theorem create_ne (h : other ≠ path) : (files.create path e).entry other = files.entry other := by
  unfold create
  split
  · exact Function.update_of_ne h _ _
  · rfl

theorem overwrite_ne (h : other ≠ path) :
    (files.overwrite path data).entry other = files.entry other := by
  unfold overwrite
  split
  · exact Function.update_of_ne h _ _
  · rfl

theorem remove_below (hpath : path ≠ []) (h : path <+: other) :
    (files.remove path).entry other = none := by
  unfold remove
  rw [dif_neg hpath]
  exact if_pos h

theorem remove_out (h : ¬ path <+: other) :
    (files.remove path).entry other = files.entry other := by
  unfold remove
  split
  · rfl
  · exact if_neg h

section Move

variable {source target : Path} (hsource : files.entry source = some .dir) (hne : source ≠ [])
  (hapart : ¬ source <+: target)
  (habsent : files.entry target = none) (hparent : files.entry target.dropLast = some .dir)

include hsource hne hapart habsent hparent

theorem move_target (h : target <+: path) :
    (files.move source target).entry path = files.entry (source ++ path.drop target.length) := by
  unfold move
  rw [dif_pos ⟨hsource, hne, hapart, habsent, hparent⟩]
  exact if_pos h

theorem move_source (hout : ¬ target <+: path) (h : source <+: path) :
    (files.move source target).entry path = none := by
  unfold move
  rw [dif_pos ⟨hsource, hne, hapart, habsent, hparent⟩]
  exact (if_neg hout).trans (if_pos h)

end Move

theorem move_out {source target : Path} (htarget : ¬ target <+: path)
    (hsource : ¬ source <+: path) :
    (files.move source target).entry path = files.entry path := by
  unfold move
  split
  · exact (if_neg htarget).trans (if_neg hsource)
  · rfl

end Files

end FileTree
